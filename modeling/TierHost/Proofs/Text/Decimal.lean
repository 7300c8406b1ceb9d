import Mathlib.Algebra.Group.Nat.Defs
import Mathlib.Tactic.Common

/-!
Decimal writings of whole numbers: their characters are digits, different numbers are written
differently, a larger number takes no fewer digits, a number takes no more digits than any text of
digits that it is read from, and the writing of its successor is no continuation of its own.
-/

namespace TierHost.Text

theorem isDigit_of_isAlpha {c : Char} (h : c.isAlpha = true) : c.isDigit = false := by
  have hletter : c.isUpper = true ∨ c.isLower = true := Bool.or_eq_true_iff.mp h
  have hlarge : 'A'.val ≤ c.val := by
    cases hletter with
    | inl hupper => exact (of_decide_eq_true hupper).1
    | inr hlower =>
      have hge : 'a'.val ≤ c.val := of_decide_eq_true (Bool.and_eq_true_iff.mp hlower).1
      exact UInt32.le_trans (by decide) hge
  have hsmall : ¬ c.val ≤ '9'.val := by
    intro hdigit
    exact absurd (UInt32.le_trans hlarge hdigit) (by decide)
  exact Bool.and_eq_false_iff.mpr (Or.inr (decide_eq_false hsmall))

theorem toList_toString (n : Nat) : (toString n).toList = Nat.toDigits 10 n := Nat.toList_repr

theorem notMem_toString {c : Char} (hc : c.isDigit = false) (n : Nat) :
    c ∉ (toString n).toList := by
  intro h
  rw [toList_toString] at h
  have hd := Nat.isDigit_of_mem_toDigits (by decide) (by decide) h
  rw [hd] at hc
  cases hc

theorem toString_inj {m n : Nat} (h : toString m = toString n) : m = n := by
  have hd : Nat.toDigits 10 m = Nat.toDigits 10 n := by
    rw [← toList_toString, ← toList_toString, h]
  calc m = Nat.ofDigitChars 10 (Nat.toDigits 10 m) 0 := Nat.ofDigitChars_ten_toDigits.symm
    _ = Nat.ofDigitChars 10 (Nat.toDigits 10 n) 0 := by rw [hd]
    _ = n := Nat.ofDigitChars_ten_toDigits

theorem length_toString_le {m n : Nat} (h : m ≤ n) :
    (toString m).toList.length ≤ (toString n).toList.length := by
  rw [toList_toString, toList_toString]
  have hpos : 0 < (Nat.toDigits 10 n).length := List.length_pos_iff.mpr Nat.toDigits_ne_nil
  have hn : n < 10 ^ (Nat.toDigits 10 n).length :=
    (Nat.length_toDigits_le_iff (by decide) hpos).mp (Nat.le_refl _)
  exact (Nat.length_toDigits_le_iff (by decide) hpos).mpr (Nat.lt_of_le_of_lt h hn)

theorem ofDigitChars_lt {digits : List Char} (h : ∀ ch ∈ digits, ch.isDigit = true) (n : Nat) :
    Nat.ofDigitChars 10 digits n < (n + 1) * 10 ^ digits.length := by
  induction digits generalizing n with
  | nil => simp
  | cons ch digits ih =>
    have hch : ch.toNat - '0'.toNat < 10 := by
      have hle : ch.val ≤ '9'.val :=
        of_decide_eq_true (Bool.and_eq_true_iff.mp (h ch List.mem_cons_self)).2
      have hle' : ch.toNat ≤ 57 := hle
      have hzero : '0'.toNat = 48 := rfl
      omega
    rw [Nat.ofDigitChars_cons, List.length_cons]
    calc Nat.ofDigitChars 10 digits (10 * n + (ch.toNat - '0'.toNat))
        < (10 * n + (ch.toNat - '0'.toNat) + 1) * 10 ^ digits.length :=
          ih (fun c hc => h c (List.mem_cons_of_mem ch hc)) _
      _ ≤ ((n + 1) * 10) * 10 ^ digits.length := Nat.mul_le_mul_right _ (by omega)
      _ = (n + 1) * 10 ^ (digits.length + 1) := by rw [Nat.pow_succ', Nat.mul_assoc]

/-- Zeros in front only make a writing longer. -/
theorem length_toString_ofDigitChars {digits : List Char} (hne : digits ≠ [])
    (h : ∀ ch ∈ digits, ch.isDigit = true) :
    (toString (Nat.ofDigitChars 10 digits 0)).toList.length ≤ digits.length := by
  rw [toList_toString, Nat.length_toDigits_le_iff (by decide) (List.length_pos_iff.mpr hne)]
  simpa using ofDigitChars_lt h 0

theorem le_ofDigitChars (digits : List Char) (n : Nat) : n ≤ Nat.ofDigitChars 10 digits n := by
  induction digits generalizing n with
  | nil => exact Nat.le_refl n
  | cons ch digits ih =>
    rw [Nat.ofDigitChars_cons]
    calc n ≤ 10 * n + (ch.toNat - '0'.toNat) := by omega
      _ ≤ Nat.ofDigitChars 10 digits (10 * n + (ch.toNat - '0'.toNat)) := ih _

/-- The writing of a number goes on to that of no successor, except from zero. -/
theorem not_prefix_toString_succ {n : Nat} (hn : 0 < n) :
    ¬ (toString n).toList <+: (toString (n + 1)).toList := by
  rintro ⟨rest, hrest⟩
  cases rest with
  | nil =>
    rw [List.append_nil] at hrest
    have hsame : n = n + 1 := toString_inj (String.toList_inj.mp hrest)
    omega
  | cons ch rest =>
    -- one more digit makes the number at least ten times as large
    rw [toList_toString, toList_toString] at hrest
    have hlarge : 10 * n ≤ n + 1 := by
      calc 10 * n ≤ 10 * n + (ch.toNat - '0'.toNat) := Nat.le_add_right _ _
        _ ≤ Nat.ofDigitChars 10 rest (10 * n + (ch.toNat - '0'.toNat)) := le_ofDigitChars _ _
        _ = Nat.ofDigitChars 10 (ch :: rest) n := Nat.ofDigitChars_cons.symm
        _ = Nat.ofDigitChars 10 (Nat.toDigits 10 n ++ ch :: rest) 0 := by
          rw [Nat.ofDigitChars_append, Nat.ofDigitChars_ten_toDigits]
        _ = n + 1 := by rw [hrest, Nat.ofDigitChars_ten_toDigits]
    omega

end TierHost.Text
