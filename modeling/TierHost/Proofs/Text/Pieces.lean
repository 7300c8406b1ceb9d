import TierHost.Proofs.Text.Occurrence

/-!
The pieces of a text between the places of a character. Cutting and joining undo each other, and what
is replaced in a text is replaced in each piece on its own, if the character is in neither text.
-/

namespace TierHost.Text

variable {mark : Char} {x y s : List Char}

theorem pieces_eq_splitOn (mark : Char) (s : List Char) : pieces mark s = s.splitOn mark := by
  induction s with
  | nil => rw [pieces, List.splitOn_nil]
  | cons c cs ih =>
    rw [pieces, List.splitOn_cons_eq_if_modifyHead, ih]
    by_cases hc : c = mark
    · rw [if_pos hc, if_pos (beq_iff_eq.mpr hc)]
    · rw [if_neg hc, if_neg (fun h => hc (beq_iff_eq.mp h))]
      cases hs : cs.splitOn mark with
      | nil => exact absurd hs (List.splitOn_ne_nil mark cs)
      | cons p ps => rfl

theorem pieces_of_notMem (h : mark ∉ s) : pieces mark s = [s] := by
  rw [pieces_eq_splitOn, List.splitOn_eq_singleton h]

theorem pieces_append_cons (mark : Char) (x y : List Char) :
    pieces mark (x ++ mark :: y) = pieces mark x ++ pieces mark y := by
  simp only [pieces_eq_splitOn, List.splitOn_append_cons_self]

theorem intercalate_pieces (mark : Char) (s : List Char) :
    [mark].intercalate (pieces mark s) = s := by
  rw [pieces_eq_splitOn, List.intercalate_splitOn]

theorem pieces_intercalate {words : List (List Char)} (h : ∀ w ∈ words, mark ∉ w)
    (hne : words ≠ []) : pieces mark ([mark].intercalate words) = words := by
  rw [pieces_eq_splitOn, List.splitOn_intercalate mark h hne]

/-- Induction over a text from one place of a character to the next. -/
theorem pieces_induction (mark : Char) {motive : List Char → Prop} (last : ∀ s, mark ∉ s → motive s)
    (cut : ∀ x y, mark ∉ x → motive y → motive (x ++ mark :: y)) (s : List Char) : motive s := by
  induction hl : s.length using Nat.strong_induction_on generalizing s with
  | _ n ih =>
    by_cases hs : mark ∈ s
    · obtain ⟨x, y, rfl, hx⟩ := List.eq_append_cons_of_mem hs
      have hshort : y.length < n := by
        rw [List.length_append, List.length_cons] at hl
        omega
      exact cut x y hx (ih y.length hshort y rfl)
    · exact last s hs

theorem notMem_of_mem_pieces {p : List Char} (h : p ∈ pieces mark s) : mark ∉ p := by
  induction s using pieces_induction mark with
  | last s hs =>
    rw [pieces_of_notMem hs, List.mem_singleton] at h
    rwa [h]
  | cut x y hx ih =>
    rw [pieces_append_cons, pieces_of_notMem hx, List.mem_append, List.mem_singleton] at h
    rcases h with rfl | h
    · exact hx
    · exact ih h

/-- A mark stands beside another one behind a text without marks if it does so in what follows. -/
theorem double_infix_append_iff (hx : mark ∉ x) :
    [mark, mark] <:+: x ++ mark :: y ↔ [mark] <+: y ∨ [mark, mark] <:+: y := by
  induction x with
  | nil =>
    rw [List.nil_append, List.infix_cons_iff, List.cons_prefix_cons]
    exact or_congr_left (and_iff_right rfl)
  | cons c x ih =>
    rw [List.mem_cons, not_or] at hx
    rw [List.cons_append, List.infix_cons_iff, List.cons_prefix_cons, ih hx.2]
    exact or_iff_right fun h => hx.1 h.1

/-- An empty piece lies in front of a mark, behind one, or between two that stand side by side. -/
theorem nil_mem_pieces_iff :
    [] ∈ pieces mark s ↔ s = [] ∨ [mark] <+: s ∨ [mark] <:+ s ∨ [mark, mark] <:+: s := by
  induction s using pieces_induction mark with
  | last s hs =>
    have habsent (t : List Char) : t <:+: s → mark ∉ t := fun ht hm => hs (ht.subset hm)
    rw [pieces_of_notMem hs, List.mem_singleton, eq_comm, or_iff_left]
    intro h
    rcases h with h | h | h
    · exact habsent _ h.isInfix List.mem_cons_self
    · exact habsent _ h.isInfix List.mem_cons_self
    · exact habsent _ h List.mem_cons_self
  | cut x y hx ih =>
    have hfront : [mark] <+: x ++ mark :: y ↔ x = [] := by
      cases x with
      | nil => exact iff_of_true ⟨y, rfl⟩ rfl
      | cons c x =>
        rw [List.mem_cons, not_or] at hx
        rw [List.cons_append, List.cons_prefix_cons]
        exact iff_of_false (fun h => hx.1 h.1) (List.cons_ne_nil c x)
    have hback : [mark] <:+ x ++ mark :: y ↔ y = [] ∨ [mark] <:+ y := by
      rw [List.singleton_suffix_iff_getLast?_eq_some, List.getLast?_append_cons,
        ← List.singleton_suffix_iff_getLast?_eq_some, List.suffix_cons_iff]
      exact or_congr_left (by simp [eq_comm])
    have hne : x ++ mark :: y ≠ [] := List.append_ne_nil_of_right_ne_nil x (List.cons_ne_nil mark y)
    rw [pieces_append_cons, pieces_of_notMem hx, List.singleton_append, List.mem_cons, ih,
      or_iff_right hne, hfront, hback, double_infix_append_iff hx, eq_comm, or_assoc,
      or_left_comm (a := [mark] <:+ y)]

/-- Replacing a text without the character in a whole text comes to replacing it in every piece. -/
theorem pieces_replaceEach {old new : List Char} (ho : old ≠ []) (hold : mark ∉ old)
    (hnew : mark ∉ new) (s : List Char) :
    pieces mark (replaceEach old new s) = (pieces mark s).map (replaceEach old new) := by
  induction s using pieces_induction mark with
  | last s hs =>
    rw [pieces_of_notMem hs, pieces_of_notMem (notMem_replaceEach ho hs hnew), List.map_singleton]
  | cut x y hx ih =>
    rw [replaceEach_append_cons ho hold, pieces_append_cons, pieces_append_cons, ih,
      pieces_of_notMem hx, pieces_of_notMem (notMem_replaceEach ho hx hnew), List.map_append,
      List.map_singleton]

end TierHost.Text
