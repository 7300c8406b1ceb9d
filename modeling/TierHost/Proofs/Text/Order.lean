import TierHost.Text.Order
import Mathlib.Data.List.Infix
import Mathlib.Data.String.Basic

/-!
Sorting texts and leaving repetitions out keeps the members and orders them strictly.
-/

namespace TierHost.Text

theorem nodup_eraseDups {α : Type} [DecidableEq α] (l : List α) : l.eraseDups.Nodup := by
  induction hn : l.length using Nat.strong_induction_on generalizing l with
  | _ n ih =>
    cases l with
    | nil => simp
    | cons a as =>
      rw [List.eraseDups_cons, List.nodup_cons]
      have hl := List.length_filter_le (fun b => !b == a) as
      refine ⟨by simp, ih _ ?_ _ rfl⟩
      rw [List.length_cons] at hn
      omega

theorem eraseDups_concat {α : Type} [DecidableEq α] (xs : List α) (y : α) :
    (xs ++ [y]).eraseDups =
      if xs.eraseDups.contains y then xs.eraseDups else xs.eraseDups ++ [y] := by
  rw [List.eraseDups_append]
  by_cases hy : y ∈ xs
  · simp [hy, List.removeAll]
  · simp [hy, List.removeAll, List.eraseDups_cons]

/-- Adding names that are not there yet comes to leaving repetitions out. -/
theorem foldl_append_new {α : Type} [DecidableEq α] (xs ys : List α) :
    ys.foldl (fun l n => if l.contains n then l else l ++ [n]) xs.eraseDups =
      (xs ++ ys).eraseDups := by
  induction ys generalizing xs with
  | nil => rw [List.foldl_nil, List.append_nil]
  | cons y ys ih => rw [List.foldl_cons, ← eraseDups_concat, ih, ← List.append_cons]

theorem mem_sortedDistinct {names : List String} {name : String} :
    name ∈ sortedDistinct names ↔ name ∈ names := by
  rw [sortedDistinct, sorted, List.mem_mergeSort, List.mem_eraseDups]

theorem pairwise_sortedDistinct (names : List String) :
    (sortedDistinct names).Pairwise (· < ·) := by
  have hle : (sortedDistinct names).Pairwise (· ≤ ·) := by
    have ht (a b c : String) (hab : decide (a ≤ b)) (hbc : decide (b ≤ c)) : decide (a ≤ c) :=
      decide_eq_true (le_trans (of_decide_eq_true hab) (of_decide_eq_true hbc))
    have hl (a b : String) : decide (a ≤ b) || decide (b ≤ a) := by
      simpa only [Bool.or_eq_true, decide_eq_true_eq] using le_total a b
    exact (List.pairwise_mergeSort ht hl names.eraseDups).imp of_decide_eq_true
  have hne : (sortedDistinct names).Pairwise (· ≠ ·) :=
    (List.mergeSort_perm _ _).nodup_iff.mpr (nodup_eraseDups names)
  exact (hle.and hne).imp fun h => lt_of_le_of_ne h.1 h.2

end TierHost.Text
