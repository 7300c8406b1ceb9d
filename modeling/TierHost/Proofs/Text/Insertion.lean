import TierHost.Proofs.Text.Front

/-!
Text put in at the first place of a pattern. When the pattern is kept, its first place afterwards tells
where it was before, so that no two texts become the same: always when something is put in behind it,
and in front of it when what is put in begins with a character that the pattern does not hold.
-/

namespace TierHost.Text

variable {pattern before after by_ s : List Char}

theorem exists_firstAt (h : pattern <:+: s) : ∃ before after, FirstAt pattern before after s := by
  rcases replaceFirst_cases pattern [] s with ⟨habsent, -⟩ | ⟨before, after, hfirst, -⟩
  · exact absurd h habsent
  · exact ⟨before, after, hfirst⟩

/-- No place of the pattern lies inside what stands before the first one. -/
theorem FirstAt.not_infix_before (h : FirstAt pattern before after s) (hp : pattern ≠ []) :
    ¬ pattern <:+: before := by
  rintro ⟨u, v, huv⟩
  have hplace : s = u ++ pattern ++ (v ++ pattern ++ after) := by
    rw [h.split, ← huv]
    simp only [List.append_assoc]
  have hle := h.least u _ hplace
  have hlength := congrArg List.length huv
  have hpos : 0 < pattern.length := List.length_pos_iff.mpr hp
  simp only [List.length_append] at hlength
  omega

/-- If the first place of the pattern afterwards is at a fixed distance from where it was, no two texts
become the same. -/
theorem replaceFirst_injective (shift rest : List Char)
    (h : ∀ s before after, FirstAt pattern before after s →
      FirstAt pattern (before ++ shift) (rest ++ after) (before ++ by_ ++ after)) :
    Function.Injective (replaceFirst pattern by_) := by
  intro s s' he
  rcases replaceFirst_cases pattern by_ s with ⟨habsent, hs⟩ | ⟨u, v, hfirst, hs⟩
  · rcases replaceFirst_cases pattern by_ s' with ⟨-, hs'⟩ | ⟨u', v', hfirst', hs'⟩
    · rw [← hs, he, hs']
    · have hocc := (h s' u' v' hfirst').occurs
      rw [← hs', ← he, hs] at hocc
      exact absurd hocc habsent
  · have hplace := h s u v hfirst
    rw [← hs, he] at hplace
    rcases replaceFirst_cases pattern by_ s' with ⟨habsent', hs'⟩ | ⟨u', v', hfirst', hs'⟩
    · rw [hs'] at hplace
      exact absurd hplace.occurs habsent'
    · have hplace' := h s' u' v' hfirst'
      rw [← hs'] at hplace'
      obtain ⟨hbefore, hafter⟩ := hplace.unique hplace'
      rw [hfirst.split, hfirst'.split, List.append_cancel_right hbefore,
        List.append_cancel_left hafter]

/-- Putting something in behind the first place leaves that the first one. -/
theorem FirstAt.insert_behind (h : FirstAt pattern before after s) (x : List Char) :
    FirstAt pattern before (x ++ after) (before ++ (pattern ++ x) ++ after) := by
  refine ⟨by simp only [List.append_assoc], ?_⟩
  intro u v huv
  by_contra hlt
  -- an earlier place would end before what is put in
  have hshort : (u ++ pattern).length ≤ (before ++ pattern).length := by
    simp only [List.length_append]
    omega
  have hleft : u ++ pattern <+: before ++ (pattern ++ x) ++ after := ⟨v, huv.symm⟩
  have hright : before ++ pattern <+: before ++ (pattern ++ x) ++ after :=
    ⟨x ++ after, by simp only [List.append_assoc]⟩
  obtain ⟨t, ht⟩ := List.prefix_of_prefix_length_le hleft hright hshort
  have hplace : s = u ++ pattern ++ (t ++ after) := by
    rw [h.split, ← ht]
    simp only [List.append_assoc]
  exact hlt (h.least u _ hplace)

theorem replaceFirst_behind_injective (pattern x : List Char) :
    Function.Injective (replaceFirst pattern (pattern ++ x)) := by
  apply replaceFirst_injective [] x
  intro s before after h
  rw [List.append_nil]
  exact h.insert_behind x

/-- Putting something in front of the first place moves that by as much as the first place in what is
put in with the pattern, if it begins with a character that the pattern does not hold. -/
theorem FirstAt.insert_before {c : Char} {token shift rest : List Char} (hp : pattern ≠ [])
    (hc : c ∉ pattern) (h : FirstAt pattern before after s)
    (hshift : FirstAt pattern shift rest (c :: token ++ pattern)) :
    FirstAt pattern (before ++ shift) (rest ++ after)
      (before ++ (c :: token ++ pattern) ++ after) := by
  constructor
  · rw [hshift.split]
    simp only [List.append_assoc]
  intro u v huv
  have hcut : before ++ c :: (token ++ pattern ++ after) = u ++ pattern ++ v := by
    rw [← huv]
    simp only [List.append_assoc, List.cons_append]
  rcases Nat.lt_or_ge before.length u.length with hlt | hge
  · -- behind the beginning of what is put in, the place is one in that and the pattern
    have hfront : before <+: u ++ pattern ++ v := hcut ▸ List.prefix_append before _
    have hfront' : u <+: u ++ pattern ++ v := ⟨pattern ++ v, (List.append_assoc _ _ _).symm⟩
    obtain ⟨w, rfl⟩ := List.prefix_of_prefix_length_le hfront hfront' hlt.le
    by_contra hshort
    have hwhole : before ++ (w ++ pattern ++ v) = before ++ ((c :: token ++ pattern) ++ after) := by
      rw [← List.append_assoc before (c :: token ++ pattern) after, huv]
      simp only [List.append_assoc]
    have hrest := List.append_cancel_left hwhole
    have hfits : (w ++ pattern).length ≤ (c :: token ++ pattern).length := by
      have hlength := congrArg List.length hshift.split
      simp only [List.length_append] at hshort hlength ⊢
      omega
    obtain ⟨t, ht⟩ := List.prefix_of_prefix_length_le ⟨v, hrest⟩ (List.prefix_append _ after) hfits
    have hle := hshift.least w t ht.symm
    simp only [List.length_append] at hshort
    omega
  · -- otherwise it would lie before that, or hold its first character
    exact absurd (infix_of_front hc hcut hge) (h.not_infix_before hp)

theorem replaceFirst_before_injective {c : Char} (hp : pattern ≠ []) (hc : c ∉ pattern)
    (token : List Char) : Function.Injective (replaceFirst pattern (c :: token ++ pattern)) := by
  obtain ⟨shift, rest, hshift⟩ := exists_firstAt (List.suffix_append (c :: token) pattern).isInfix
  apply replaceFirst_injective shift rest
  intro s before after h
  exact h.insert_before hp hc hshift

-- a pattern that holds the character may let two texts become the same
example : replaceFirst ['b', 'a'] ['a', 'b', 'a'] ['a', 'b', 'b', 'a'] =
    replaceFirst ['b', 'a'] ['a', 'b', 'a'] ['b', 'a', 'b', 'a'] := by decide

end TierHost.Text
