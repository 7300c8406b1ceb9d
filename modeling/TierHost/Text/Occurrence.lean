/-!
Occurrences of one text in another: containment, replacement of the first or of all occurrences, and
the split at the last occurrence of a character.
-/

namespace TierHost.Text

def occursIn (pattern : List Char) : List Char → Bool
  | [] => pattern.isEmpty
  | c :: cs => pattern.isPrefixOf (c :: cs) || occursIn pattern cs

/-- Replaces the first occurrence; an empty pattern occurs in front. -/
def replaceFirst (pattern by_ : List Char) : List Char → List Char
  | [] => if pattern.isEmpty then by_ else []
  | c :: cs =>
    if pattern.isPrefixOf (c :: cs) then by_ ++ (c :: cs).drop pattern.length
    else c :: replaceFirst pattern by_ cs

/-- Replaces the occurrences of a pattern that is not empty, from left to right. -/
def replaceEach (pattern by_ : List Char) : List Char → List Char
  | [] => []
  | c :: cs =>
    if pattern.isPrefixOf (c :: cs) then
      by_ ++ replaceEach pattern by_ (cs.drop (pattern.length - 1))
    else c :: replaceEach pattern by_ cs
termination_by s => s.length

/-- Replaces all occurrences; an empty pattern occurs in front of every character and at the end. -/
def replaceAll (pattern by_ s : List Char) : List Char :=
  if pattern.isEmpty then by_ ++ s.flatMap (fun c => c :: by_)
  else replaceEach pattern by_ s

/-- Splits at the last occurrence of a character, which is dropped. -/
def splitAtLast (mark : Char) : List Char → Option (List Char × List Char)
  | [] => none
  | c :: cs =>
    match splitAtLast mark cs with
    | some (before, after) => some (c :: before, after)
    | none => if c = mark then some ([], cs) else none

theorem splitAtLast_eq_none_iff {mark : Char} {s : List Char} :
    splitAtLast mark s = none ↔ mark ∉ s := by
  induction s with
  | nil => simp [splitAtLast]
  | cons c cs ih =>
    rw [splitAtLast, List.mem_cons, not_or, ← ih]
    split
    · next h => simp [h]
    · next h => simp [h, eq_comm]

theorem splitAtLast_append {mark : Char} {after : List Char} (h : mark ∉ after)
    (before : List Char) : splitAtLast mark (before ++ mark :: after) = some (before, after) := by
  induction before with
  | nil => simp [splitAtLast, splitAtLast_eq_none_iff.2 h]
  | cons c cs ih => simp [splitAtLast, ih]

/-- The parts around the last occurrence make up the text, and the mark is not in the second. -/
theorem splitAtLast_eq_some_iff {mark : Char} {s before after : List Char} :
    splitAtLast mark s = some (before, after) ↔ s = before ++ mark :: after ∧ mark ∉ after := by
  refine ⟨fun h => ?_, fun h => h.1 ▸ splitAtLast_append h.2 before⟩
  induction s generalizing before with
  | nil => simp [splitAtLast] at h
  | cons c cs ih =>
    rw [splitAtLast] at h
    split at h
    · next u v huv =>
      cases h
      exact ⟨by rw [(ih huv).1]; rfl, (ih huv).2⟩
    · next hn =>
      split at h
      · next hc =>
        cases h
        exact ⟨by rw [hc]; rfl, splitAtLast_eq_none_iff.1 hn⟩
      · cases h

/-- Drops a text from the front, if it stands there. -/
def dropLeading (front s : List Char) : List Char :=
  if front.isPrefixOf s then s.drop front.length else s

/-- Cuts at every occurrence of a character; there is always at least one piece. -/
def pieces (mark : Char) : List Char → List (List Char)
  | [] => [[]]
  | c :: cs =>
    if c = mark then [] :: pieces mark cs
    else match pieces mark cs with
      | [] => [[c]]
      | p :: ps => (c :: p) :: ps

end TierHost.Text
