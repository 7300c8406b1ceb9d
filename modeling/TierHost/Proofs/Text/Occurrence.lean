import TierHost.Text.Occurrence
import Mathlib.Data.List.Infix

/-!
Occurrences and replacement of patterns: where the first occurrence is, and what replacing the first
or every occurrence does to the length, the characters and the parts of a text.
-/

namespace TierHost.Text

/-- A start of two joined texts ends in the first, or goes on into the second. -/
theorem prefix_append_cases {x y z : List Char} (h : x <+: y ++ z) :
    x <+: y ∨ ∃ t, x = y ++ t ∧ t <+: z := by
  rcases List.prefix_or_prefix_of_prefix h (List.prefix_append y z) with hshort | ⟨t, rfl⟩
  · exact Or.inl hshort
  · exact Or.inr ⟨t, rfl, (List.prefix_append_right_inj y).mp h⟩

theorem occursIn_iff {pattern s : List Char} : occursIn pattern s = true ↔ pattern <:+: s := by
  induction s with
  | nil => simp [occursIn, List.isEmpty_iff]
  | cons c cs ih => simp [occursIn, ih, List.infix_cons_iff, List.isPrefixOf_iff_prefix]

/-- The pattern stands between the two parts of the text, and nowhere earlier. -/
structure FirstAt (pattern before after s : List Char) : Prop where
  split : s = before ++ pattern ++ after
  least : ∀ u v, s = u ++ pattern ++ v → before.length ≤ u.length

theorem FirstAt.occurs {pattern before after s : List Char} (h : FirstAt pattern before after s) :
    pattern <:+: s := ⟨before, after, h.split.symm⟩

theorem FirstAt.unique {pattern before before' after after' s : List Char}
    (h : FirstAt pattern before after s) (h' : FirstAt pattern before' after' s) :
    before = before' ∧ after = after' := by
  have hle := h.least before' after' h'.split
  have hle' := h'.least before after h.split
  have hs : before ++ (pattern ++ after) = before' ++ (pattern ++ after') := by
    rw [← List.append_assoc, ← List.append_assoc, ← h.split, ← h'.split]
  obtain ⟨hbefore, hrest⟩ := List.append_inj hs (by omega)
  exact ⟨hbefore, List.append_cancel_left hrest⟩

theorem FirstAt.cons {pattern before after cs : List Char} {c : Char}
    (h : FirstAt pattern before after cs) (hp : ¬ pattern <+: c :: cs) :
    FirstAt pattern (c :: before) after (c :: cs) := by
  refine ⟨by rw [h.split]; rfl, ?_⟩
  intro u v huv
  cases u with
  | nil => exact absurd ⟨v, huv.symm⟩ hp
  | cons d u =>
    have hcs : cs = u ++ pattern ++ v := (List.cons.inj huv).2
    have := h.least u v hcs
    simpa using this

/-- Replacing the first occurrence changes that one only, and nothing if there is none. -/
theorem replaceFirst_cases (pattern by_ s : List Char) :
    (¬ pattern <:+: s ∧ replaceFirst pattern by_ s = s) ∨
      ∃ before after, FirstAt pattern before after s ∧
        replaceFirst pattern by_ s = before ++ by_ ++ after := by
  induction s with
  | nil =>
    by_cases hp : pattern = []
    · subst hp
      exact Or.inr ⟨[], [], ⟨rfl, fun _ _ _ => Nat.zero_le _⟩, by simp [replaceFirst]⟩
    · exact Or.inl ⟨by simpa using hp, by simp [replaceFirst, hp]⟩
  | cons c cs ih =>
    by_cases hp : pattern <+: c :: cs
    · have hd : pattern ++ (c :: cs).drop pattern.length = c :: cs := by
        obtain ⟨t, ht⟩ := hp
        rw [← ht, List.drop_left]
      refine Or.inr ⟨[], (c :: cs).drop pattern.length, ⟨hd.symm, fun _ _ _ => Nat.zero_le _⟩, ?_⟩
      rw [replaceFirst, if_pos (List.isPrefixOf_iff_prefix.mpr hp), List.nil_append]
    · have hr : replaceFirst pattern by_ (c :: cs) = c :: replaceFirst pattern by_ cs := by
        rw [replaceFirst, if_neg (fun h => hp (List.isPrefixOf_iff_prefix.mp h))]
      rcases ih with ⟨hn, he⟩ | ⟨before, after, hf, he⟩
      · refine Or.inl ⟨?_, by rw [hr, he]⟩
        intro h
        exact (List.infix_cons_iff.mp h).elim hp hn
      · exact Or.inr ⟨c :: before, after, hf.cons hp, by rw [hr, he]; rfl⟩

theorem FirstAt.replaceFirst {pattern before after s : List Char}
    (h : FirstAt pattern before after s) (by_ : List Char) :
    replaceFirst pattern by_ s = before ++ by_ ++ after := by
  rcases replaceFirst_cases pattern by_ s with ⟨hn, -⟩ | ⟨before', after', hf, he⟩
  · exact absurd h.occurs hn
  · obtain ⟨rfl, rfl⟩ := h.unique hf
    exact he

theorem mem_replaceFirst {pattern by_ s : List Char} {c : Char} (hs : c ∈ s)
    (hp : c ∈ pattern → c ∈ by_) : c ∈ replaceFirst pattern by_ s := by
  rcases replaceFirst_cases pattern by_ s with ⟨_, he⟩ | ⟨before, after, hf, he⟩
  · rwa [he]
  · rw [he]
    have hm : c ∈ before ++ pattern ++ after := hf.split ▸ hs
    simp only [List.mem_append] at hm ⊢
    rcases hm with (hb | hb) | hb
    · exact Or.inl (Or.inl hb)
    · exact Or.inl (Or.inr (hp hb))
    · exact Or.inr hb

/-- What is in a text afterwards was there before, or was put in. -/
theorem mem_of_mem_replaceFirst {pattern by_ s : List Char} {c : Char}
    (h : c ∈ replaceFirst pattern by_ s) : c ∈ s ∨ (pattern <:+: s ∧ c ∈ by_) := by
  rcases replaceFirst_cases pattern by_ s with ⟨-, he⟩ | ⟨before, after, hf, he⟩
  · exact Or.inl (he ▸ h)
  · rw [he, List.mem_append, List.mem_append] at h
    rcases h with (hb | hb) | ha
    · rw [hf.split]
      exact Or.inl (List.mem_append_left _ (List.mem_append_left _ hb))
    · exact Or.inr ⟨hf.occurs, hb⟩
    · rw [hf.split]
      exact Or.inl (List.mem_append_right _ ha)

theorem length_replaceFirst {pattern s : List Char} (by_ : List Char) (h : pattern <:+: s) :
    (replaceFirst pattern by_ s).length + pattern.length = s.length + by_.length := by
  rcases replaceFirst_cases pattern by_ s with ⟨hn, -⟩ | ⟨before, after, hf, he⟩
  · exact absurd h hn
  · rw [he, hf.split]
    simp only [List.length_append]
    omega

theorem replaceFirst_absent {pattern by_ s : List Char} (h : ¬ pattern <:+: s) :
    replaceFirst pattern by_ s = s := by
  rcases replaceFirst_cases pattern by_ s with ⟨-, he⟩ | ⟨before, after, hf, -⟩
  · exact he
  · exact absurd hf.occurs h

theorem length_le_length_replaceFirst {pattern by_ : List Char} (hl : pattern.length ≤ by_.length)
    (s : List Char) : s.length ≤ (replaceFirst pattern by_ s).length := by
  by_cases h : pattern <:+: s
  · have hlen := length_replaceFirst by_ h
    omega
  · rw [replaceFirst_absent h]

theorem replaceEach_append {pattern by_ s : List Char} (hn : pattern ≠ []) :
    replaceEach pattern by_ (pattern ++ s) = by_ ++ replaceEach pattern by_ s := by
  cases pattern with
  | nil => exact absurd rfl hn
  | cons p ps =>
    have hp : (p :: ps).isPrefixOf (p :: (ps ++ s)) = true :=
      List.isPrefixOf_iff_prefix.mpr (List.prefix_append (p :: ps) s)
    rw [List.cons_append, replaceEach, if_pos hp]
    simp

theorem replaceEach_pass {pattern by_ cs : List Char} {c : Char}
    (h : ¬ pattern <+: c :: cs) :
    replaceEach pattern by_ (c :: cs) = c :: replaceEach pattern by_ cs := by
  rw [replaceEach, if_neg (fun hp => h (List.isPrefixOf_iff_prefix.mp hp))]

theorem replaceAll_eq {pattern : List Char} (hn : pattern ≠ []) (by_ : List Char) :
    replaceAll pattern by_ = replaceEach pattern by_ := by
  have hne : ¬ pattern.isEmpty = true := by simpa using hn
  funext s
  rw [replaceAll, if_neg hne]

/-- Reading a text from left to right for replacement: the pattern stands in front, or one
character is passed over. -/
theorem replaceEach_induction {pattern : List Char} (hn : pattern ≠ [])
    {motive : List Char → Prop} (nil : motive [])
    (found : ∀ s, motive s → motive (pattern ++ s))
    (pass : ∀ c s, ¬ pattern <+: c :: s → motive s → motive (c :: s)) (s : List Char) :
    motive s := by
  induction hl : s.length using Nat.strong_induction_on generalizing s with
  | _ n ih =>
    cases s with
    | nil => exact nil
    | cons c cs =>
      by_cases hp : pattern <+: c :: cs
      · obtain ⟨t, ht⟩ := hp
        rw [← ht]
        refine found t (ih t.length ?_ t rfl)
        have h0 : 0 < pattern.length := List.length_pos_iff.mpr hn
        have h1 := congrArg List.length ht
        simp only [List.length_append, List.length_cons] at h1 hl
        omega
      · exact pass c cs hp (ih cs.length (by simp at hl; omega) cs rfl)

/-- A character that the pattern does not hold cuts the replacement in two. -/
theorem replaceEach_append_cons {pattern by_ : List Char} {c : Char} (hn : pattern ≠ [])
    (hc : c ∉ pattern) (x y : List Char) :
    replaceEach pattern by_ (x ++ c :: y) =
      replaceEach pattern by_ x ++ c :: replaceEach pattern by_ y := by
  induction x using replaceEach_induction hn with
  | nil =>
    have hp : ¬ pattern <+: c :: y := by
      rintro ⟨t, ht⟩
      cases pattern with
      | nil => exact hn rfl
      | cons p ps => exact hc ((List.cons.inj ht).1 ▸ List.mem_cons_self)
    rw [List.nil_append, replaceEach_pass hp, replaceEach, List.nil_append]
  | found s ih =>
    rw [List.append_assoc, replaceEach_append hn, replaceEach_append hn, ih,
      List.append_assoc]
  | pass d s hd ih =>
    have hp : ¬ pattern <+: d :: (s ++ c :: y) := by
      rintro ⟨t, ht⟩
      -- the pattern would have to end before the cut, and then it stands in front of `d :: s`
      have hl : pattern.length ≤ (d :: s).length := by
        by_contra hlt
        have hm : c ∈ pattern := by
          have hs : (d :: s) ++ [c] <+: d :: (s ++ c :: y) := ⟨y, by simp⟩
          have hpre : (d :: s) ++ [c] <+: pattern := by
            refine List.prefix_of_prefix_length_le hs ⟨t, ht⟩ ?_
            simp only [List.length_append, List.length_cons, List.length_nil] at hlt ⊢
            omega
          exact hpre.subset (by simp)
        exact hc hm
      have hs : d :: s <+: d :: (s ++ c :: y) := ⟨c :: y, by simp⟩
      exact hd (List.prefix_of_prefix_length_le ⟨t, ht⟩ hs hl)
    rw [List.cons_append, replaceEach_pass hp, replaceEach_pass hd, ih,
      List.cons_append]

theorem replaceEach_absent {pattern by_ s : List Char} (h : ¬ pattern <:+: s) :
    replaceEach pattern by_ s = s := by
  induction s with
  | nil => rw [replaceEach]
  | cons c cs ih =>
    have hc : ¬ pattern <+: c :: cs := fun hp => h hp.isInfix
    rw [replaceEach_pass hc,
      ih (fun hi => h (hi.trans (List.suffix_cons c cs).isInfix))]

theorem infix_replaceEach {pattern by_ s : List Char} (hn : pattern ≠ []) (h : pattern <:+: s) :
    by_ <:+: replaceEach pattern by_ s := by
  induction s using replaceEach_induction hn with
  | nil => exact absurd (by simpa using h) hn
  | found s ih =>
    rw [replaceEach_append hn]
    exact (List.prefix_append _ _).isInfix
  | pass c s hp ih =>
    rw [replaceEach_pass hp]
    exact (ih ((List.infix_cons_iff.mp h).resolve_left hp)).trans (List.suffix_cons _ _).isInfix

theorem length_le_length_replaceEach {pattern by_ : List Char} (hn : pattern ≠ [])
    (hl : pattern.length ≤ by_.length) (s : List Char) :
    s.length ≤ (replaceEach pattern by_ s).length := by
  induction s using replaceEach_induction hn with
  | nil => exact Nat.zero_le _
  | found s ih =>
    rw [replaceEach_append hn, List.length_append, List.length_append]
    omega
  | pass c s hp ih =>
    rw [replaceEach_pass hp, List.length_cons, List.length_cons]
    omega

/-- A pattern that occurs, and that something else of at least its length is put in for, leaves a
different text. -/
theorem replaceEach_ne {pattern by_ s : List Char} (hn : pattern ≠ [])
    (hl : pattern.length ≤ by_.length) (hne : pattern ≠ by_) (h : pattern <:+: s) :
    replaceEach pattern by_ s ≠ s := by
  induction s using replaceEach_induction hn with
  | nil => exact absurd (by simpa using h) hn
  | found s ih =>
    rw [replaceEach_append hn]
    intro he
    have hlen := congrArg List.length he
    have hle := length_le_length_replaceEach hn hl s
    simp only [List.length_append] at hlen
    exact hne (List.append_inj_left' he (by omega)).symm
  | pass c s hp ih =>
    rw [replaceEach_pass hp]
    exact fun he => ih ((List.infix_cons_iff.mp h).resolve_left hp) (List.cons.inj he).2

theorem mem_replaceEach {pattern by_ s : List Char} {c : Char} (hn : pattern ≠ []) (hs : c ∈ s)
    (hc : c ∉ pattern) : c ∈ replaceEach pattern by_ s := by
  obtain ⟨x, y, rfl⟩ := List.append_of_mem hs
  rw [replaceEach_append_cons hn hc]
  exact List.mem_append_right _ List.mem_cons_self

theorem notMem_replaceEach {pattern by_ s : List Char} {c : Char} (hn : pattern ≠ []) (hs : c ∉ s)
    (hb : c ∉ by_) : c ∉ replaceEach pattern by_ s := by
  induction s using replaceEach_induction hn with
  | nil => simp [replaceEach]
  | found s ih =>
    rw [replaceEach_append hn, List.mem_append, not_or]
    exact ⟨hb, ih fun h => hs (List.mem_append_right pattern h)⟩
  | pass d s hp ih =>
    rw [List.mem_cons, not_or] at hs
    rw [replaceEach_pass hp, List.mem_cons, not_or]
    exact ⟨hs.1, ih hs.2⟩

/-- A character that neither text holds occurs as often after replacing as before. -/
theorem count_replaceEach {pattern by_ : List Char} {c : Char} (hn : pattern ≠ [])
    (hp : c ∉ pattern) (hb : c ∉ by_) (s : List Char) :
    (replaceEach pattern by_ s).count c = s.count c := by
  induction s using replaceEach_induction hn with
  | nil => rw [replaceEach]
  | found s ih =>
    rw [replaceEach_append hn, List.count_append, List.count_append, ih,
      List.count_eq_zero_of_not_mem hp, List.count_eq_zero_of_not_mem hb]
  | pass d s hd ih => rw [replaceEach_pass hd, List.count_cons, List.count_cons, ih]

theorem cut_inj {c : Char} {x x' y y' : List Char} (hx : c ∉ x) (hx' : c ∉ x')
    (h : x ++ c :: y = x' ++ c :: y') : x = x' ∧ y = y' := by
  induction x generalizing x' with
  | nil =>
    cases x' with
    | nil => exact ⟨rfl, (List.cons.inj h).2⟩
    | cons d ds => exact absurd ((List.cons.inj h).1 ▸ List.mem_cons_self) hx'
  | cons d ds ih =>
    cases x' with
    | nil => exact absurd ((List.cons.inj h).1 ▸ List.mem_cons_self) hx
    | cons d' ds' =>
      obtain ⟨hd, ht⟩ := List.cons.inj h
      obtain ⟨hds, hy⟩ := ih (fun hm => hx (List.mem_cons_of_mem d hm))
        (fun hm => hx' (List.mem_cons_of_mem d' hm)) ht
      exact ⟨by rw [hd, hds], hy⟩

end TierHost.Text
