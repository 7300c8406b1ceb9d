import TierHost.Proofs.Text.Occurrence

/-!
Simple names: what stands behind the last point of a text. Appending text without points extends the
simple name, and appending text with points replaces it.
-/

namespace TierHost.Text

/-- What stands behind the last point, or all of a text without points. -/
def simpleName (s : List Char) : List Char :=
  match splitAtLast '.' s with
  | some (_, after) => after
  | none => s

theorem simpleName_of_notMem {s : List Char} (h : '.' ∉ s) : simpleName s = s := by
  rw [simpleName, splitAtLast_eq_none_iff.mpr h]

theorem simpleName_append_cons {before after : List Char} (h : '.' ∉ after) :
    simpleName (before ++ '.' :: after) = after := by
  rw [simpleName, splitAtLast_append h]

theorem exists_simpleName (s : List Char) :
    s = simpleName s ∧ '.' ∉ s ∨
      ∃ before, s = before ++ '.' :: simpleName s ∧ '.' ∉ simpleName s := by
  unfold simpleName
  cases hs : splitAtLast '.' s with
  | none => exact Or.inl ⟨rfl, splitAtLast_eq_none_iff.mp hs⟩
  | some parts => exact Or.inr ⟨parts.1, splitAtLast_eq_some_iff.mp hs⟩

theorem point_notMem_simpleName (s : List Char) : '.' ∉ simpleName s := by
  rcases exists_simpleName s with ⟨he, hs⟩ | ⟨before, -, hs⟩
  · exact he ▸ hs
  · exact hs

theorem simpleName_append_of_mem {x y : List Char} (h : '.' ∈ y) :
    simpleName (x ++ y) = simpleName y := by
  rcases exists_simpleName y with ⟨-, hy⟩ | ⟨before, hy, hs⟩
  · exact absurd h hy
  · calc simpleName (x ++ y) = simpleName ((x ++ before) ++ '.' :: simpleName y) := by
          rw [List.append_assoc, ← hy]
      _ = simpleName y := simpleName_append_cons hs

theorem simpleName_append_of_notMem {x y : List Char} (h : '.' ∉ y) :
    simpleName (x ++ y) = simpleName x ++ y := by
  rcases exists_simpleName x with ⟨he, hx⟩ | ⟨before, hx, hs⟩
  · rw [← he, simpleName_of_notMem]
    exact fun hm => (List.mem_append.mp hm).elim hx h
  · have hsy : '.' ∉ simpleName x ++ y := fun hm => (List.mem_append.mp hm).elim hs h
    calc simpleName (x ++ y) = simpleName (before ++ '.' :: (simpleName x ++ y)) := by
          rw [← List.cons_append, ← List.append_assoc, ← hx]
      _ = simpleName x ++ y := simpleName_append_cons hsy

/-- Putting a token in at the first place of a pattern brings it into the simple name if the pattern
and what follows it have no point, and otherwise leaves the simple name as it is. -/
theorem infix_simpleName_replaceFirst {token pattern s : List Char} (ht : '.' ∉ token) :
    token <:+: simpleName (replaceFirst pattern (token ++ pattern) s) ↔
      (∃ before after, FirstAt pattern before after s ∧ '.' ∉ pattern ++ after) ∨
        token <:+: simpleName s := by
  rcases replaceFirst_cases pattern (token ++ pattern) s with ⟨hn, he⟩ | ⟨before, after, hf, he⟩
  · rw [he]
    constructor
    · exact Or.inr
    · rintro (⟨before, after, hf, -⟩ | h)
      · exact absurd hf.occurs hn
      · exact h
  · have hl : before ++ (token ++ pattern) ++ after = (before ++ token) ++ (pattern ++ after) := by
      simp only [List.append_assoc]
    rw [he, hl]
    by_cases hp : '.' ∈ pattern ++ after
    · have hs : simpleName s = simpleName (pattern ++ after) := by
        rw [hf.split, List.append_assoc, simpleName_append_of_mem hp]
      rw [simpleName_append_of_mem hp, hs]
      constructor
      · exact Or.inr
      · rintro (⟨before', after', hf', hp'⟩ | h)
        · obtain ⟨-, rfl⟩ := hf.unique hf'
          exact absurd hp hp'
        · exact h
    · rw [simpleName_append_of_notMem hp, simpleName_append_of_notMem ht]
      constructor
      · exact fun _ => Or.inl ⟨before, after, hf, hp⟩
      · exact fun _ => ⟨simpleName before, pattern ++ after, rfl⟩

end TierHost.Text
