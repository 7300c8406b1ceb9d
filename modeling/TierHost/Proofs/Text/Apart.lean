import TierHost.Proofs.Text.Occurrence

/-!
Texts that overlap one another only as a whole. When a text of this kind is put in for a pattern, it
occurs afterwards only where it was put in, so that replacing it again comes to replacing the pattern
once.
-/

namespace TierHost.Text

/-- An end of `x` is no start of `y`, unless it is empty or all of `x`. -/
def Apart (x y : List Char) : Prop := ∀ z, z <:+ x → z <+: y → z = [] ∨ z = x

/-- An end of two joined texts has its last character in the second. -/
theorem getLast_mem_right {x y z : List Char} (h : z <:+ x ++ y) (hz : z ≠ []) (hy : y ≠ []) :
    z.getLast hz ∈ y := by
  have hne : x ++ y ≠ [] := List.append_ne_nil_of_right_ne_nil x hy
  rw [h.getLast hz, List.getLast_append_of_ne_nil hne hy]
  exact List.getLast_mem hy

/-- An end of a text that has the word at its front again is all of the text, if the word is followed
by characters that it does not hold. -/
theorem eq_of_front {word tail z : List Char} (hword : word ≠ [])
    (hdisjoint : ∀ c ∈ word, c ∉ tail) (hend : z <:+ word ++ tail) (hstart : word <+: z) :
    z = word ++ tail := by
  obtain ⟨rest, rfl⟩ := hstart
  obtain ⟨front, hfront⟩ := hend
  have hsplit : (front ++ word) ++ rest = word ++ tail := by
    rw [List.append_assoc]
    exact hfront
  have hnil : front = [] := by
    by_contra hne
    have hpos : 0 < front.length := List.length_pos_iff.mpr hne
    rcases List.append_eq_append_iff.mp hsplit with ⟨u, hu, -⟩ | ⟨u, hu, hv⟩
    · have hlength := congrArg List.length hu
      simp only [List.length_append] at hlength
      omega
    · -- the second word would end behind the first one, where its last character does not occur
      have hu' : u ≠ [] := by
        rintro rfl
        have hlength := congrArg List.length hu
        simp only [List.length_append, List.length_nil] at hlength
        omega
      have hmem : word.getLast hword ∈ u := getLast_mem_right ⟨front, hu⟩ hword hu'
      have htailmem : word.getLast hword ∈ tail := hv ▸ List.mem_append_left rest hmem
      exact hdisjoint _ (List.getLast_mem hword) htailmem
  rw [hnil, List.nil_append] at hfront
  exact hfront

/-- Two texts that start with the same word overlap only as a whole, if the first goes on with
characters that are not in the word. -/
theorem apart_append {word tail tail' : List Char} (hword : word ≠ []) (htail : tail ≠ [])
    (hdisjoint : ∀ c ∈ word, c ∉ tail) : Apart (word ++ tail) (word ++ tail') := by
  intro z hsuffix hprefix
  by_cases hz : z = []
  · exact Or.inl hz
  right
  -- the end reaches past the word, since its last character stands in the tail
  have hlast : z.getLast hz ∈ tail := getLast_mem_right hsuffix hz htail
  have hlong : word <+: z := by
    rcases List.prefix_or_prefix_of_prefix hprefix (List.prefix_append word tail') with h | h
    · exact absurd hlast (hdisjoint _ (h.subset (List.getLast_mem hz)))
    · exact h
  exact eq_of_front hword hdisjoint hsuffix hlong

/-- A text that starts with the word stands in another one only at its front. -/
theorem prefix_of_infix {word tail tail' : List Char} (hword : word ≠ [])
    (hdisjoint : ∀ c ∈ word, c ∉ tail') (h : word ++ tail <:+: word ++ tail') : tail <+: tail' := by
  obtain ⟨z, hstart, hend⟩ := List.infix_iff_prefix_suffix.mp h
  have hz : z = word ++ tail' :=
    eq_of_front hword hdisjoint hend ((List.prefix_append word tail).trans hstart)
  rw [hz] at hstart
  exact (List.prefix_append_right_inj word).mp hstart

variable {old mid new s : List Char}

/-- A start of the text after replacing is one of the text before, or it reaches into a replacement. -/
theorem prefix_replaceEach {y : List Char} (ho : old ≠ []) (h : y <+: replaceEach old new s) :
    y <+: s ∨ ∃ a b, y = a ++ b ∧ b ≠ [] ∧ (b <+: new ∨ new <+: b) := by
  induction s using replaceEach_induction ho generalizing y with
  | nil =>
    rw [replaceEach] at h
    exact Or.inl h
  | found s _ =>
    rw [replaceEach_append ho] at h
    by_cases hy : y = []
    · rw [hy]
      exact Or.inl List.nil_prefix
    · have hfront : new <+: new ++ replaceEach old new s := List.prefix_append _ _
      exact Or.inr ⟨[], y, rfl, hy, List.prefix_or_prefix_of_prefix h hfront⟩
  | pass c s hc ih =>
    rw [replaceEach_pass hc] at h
    cases y with
    | nil => exact Or.inl List.nil_prefix
    | cons d y =>
      obtain ⟨rfl, hy⟩ := List.cons_prefix_cons.mp h
      rcases ih hy with hs | ⟨a, b, rfl, hb, hnew⟩
      · exact Or.inl (List.cons_prefix_cons.mpr ⟨rfl, hs⟩)
      · exact Or.inr ⟨d :: a, b, rfl, hb, hnew⟩

/-- A text that overlaps what is put in only as a whole, and is no longer than that, starts at a
character that was passed over only where it did before. -/
theorem prefix_cons_replaceEach {pattern : List Char} {c : Char} (ho : old ≠ [])
    (hl : pattern.length ≤ new.length) (ha : Apart pattern new)
    (h : pattern <+: c :: replaceEach old new s) : pattern <+: c :: s := by
  cases pattern with
  | nil => exact List.nil_prefix
  | cons d y =>
    obtain ⟨rfl, hy⟩ := List.cons_prefix_cons.mp h
    rcases prefix_replaceEach ho hy with hs | ⟨a, b, hab, hb, hput⟩
    · exact List.cons_prefix_cons.mpr ⟨rfl, hs⟩
    -- otherwise it would start in the old text and end in what was put in
    have hend : b <:+ d :: y := ⟨d :: a, by rw [hab]; rfl⟩
    have hshort : b.length < (d :: y).length := by
      rw [hab]
      simp only [List.length_cons, List.length_append]
      omega
    rcases hput with hstart | hlong
    · rcases ha b hend hstart with hnil | hall
      · exact absurd hnil hb
      · rw [hall] at hshort
        exact absurd hshort (Nat.lt_irrefl _)
    · have hle := hlong.length_le
      omega

/-- What is put in for a pattern can be replaced in turn, as if that had been put in at once: it
occurs nowhere else, if it was not there before and overlaps itself only as a whole. -/
theorem replaceEach_replaceEach (ho : old ≠ []) (hm : mid ≠ []) (ha : Apart mid mid)
    (habsent : ¬ mid <:+: s) :
    replaceEach mid new (replaceEach old mid s) = replaceEach old new s := by
  induction s using replaceEach_induction ho with
  | nil => rw [replaceEach, replaceEach, replaceEach]
  | found s ih =>
    have hrest : ¬ mid <:+: s := fun h => habsent (h.trans (List.suffix_append old s).isInfix)
    rw [replaceEach_append ho, replaceEach_append ho, replaceEach_append hm, ih hrest]
  | pass c s hc ih =>
    have hrest : ¬ mid <:+: s := fun h => habsent (h.trans (List.suffix_cons c s).isInfix)
    have hpass : ¬ mid <+: c :: replaceEach old mid s := by
      intro h
      exact habsent (prefix_cons_replaceEach ho (Nat.le_refl _) ha h).isInfix
    rw [replaceEach_pass hc, replaceEach_pass hc, replaceEach_pass hpass, ih hrest]

/-- Replacing a text by itself changes nothing. -/
theorem replaceEach_self (ho : old ≠ []) (s : List Char) : replaceEach old old s = s := by
  induction s using replaceEach_induction ho with
  | nil => rw [replaceEach]
  | found s ih => rw [replaceEach_append ho, ih]
  | pass c s hc ih => rw [replaceEach_pass hc, ih]

/-- After replacing, the pattern is nowhere left: it is not in what was put in, and overlaps that with
neither end. -/
theorem not_infix_replaceEach (ho : old ≠ []) (hl : old.length ≤ new.length)
    (hnew : ¬ old <:+: new) (ha : Apart old new) (ha' : Apart new old) :
    ¬ old <:+: replaceEach old new s := by
  induction s using replaceEach_induction ho with
  | nil =>
    rw [replaceEach]
    intro h
    exact ho (List.infix_nil.mp h)
  | found s ih =>
    rw [replaceEach_append ho]
    intro h
    rcases List.infix_append_iff.mp h with hin | hin | ⟨x, y, hxy, hx, hy⟩
    · exact hnew hin
    · exact ih hin
    -- it would start in what was put in, and end behind that
    have hfront : x <+: old := hxy ▸ List.prefix_append x y
    rcases ha' x hx hfront with hnil | hall
    · rw [hnil, List.nil_append] at hxy
      exact ih (hxy ▸ hy.isInfix)
    · have heq : new = old :=
        (hall ▸ hfront).eq_of_length (Nat.le_antisymm (hall ▸ hfront).length_le hl)
      exact hnew (heq ▸ List.infix_rfl)
  | pass c s hc ih =>
    rw [replaceEach_pass hc]
    intro h
    rcases List.infix_cons_iff.mp h with hin | hin
    · exact hc (prefix_cons_replaceEach ho hl ha hin)
    · exact ih hin

end TierHost.Text
