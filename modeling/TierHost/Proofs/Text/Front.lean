import TierHost.Proofs.Text.Occurrence

/-!
What stands in front of a cut. A text that starts with a part and the character that ends it keeps
that part when something is put in behind it, and loses it when something without the character is
put in before its end.
-/

namespace TierHost.Text

variable {c : Char} {x y z s : List Char}

theorem front_self (x : List Char) (c : Char) (z : List Char) : x ++ [c] <+: x ++ c :: z := by
  rw [List.prefix_append_right_inj]
  exact List.cons_prefix_cons.mpr ⟨rfl, List.nil_prefix⟩

/-- A start of a text that does not hold the character at a cut ends before the cut. -/
theorem prefix_of_notMem (hc : c ∉ x) (h : x <+: y ++ c :: z) : x <+: y := by
  rcases prefix_append_cases h with hshort | ⟨t, rfl, ht⟩
  · exact hshort
  · cases t with
    | nil => exact (List.append_nil y).symm ▸ List.prefix_rfl
    | cons d t =>
      obtain rfl := (List.cons_prefix_cons.mp ht).1
      exact absurd (List.mem_append_right y List.mem_cons_self) hc

/-- Two parts of a text that end at the same character with as many of it inside are one part. -/
theorem front_unique (hx : x ++ [c] <+: s) (hy : y ++ [c] <+: s) (hcount : x.count c = y.count c) :
    x = y := by
  -- of two different parts the shorter one, with its end, lies inside the longer one
  have hinside {u v : List Char} (hu : u ++ [c] <+: s) (hv : v ++ [c] <+: s)
      (hlt : u.length < v.length) : u.count c < v.count c := by
    have hlong : (u ++ [c]).length ≤ v.length := by
      rw [List.length_append, List.length_singleton]
      exact hlt
    have hprefix : u ++ [c] <+: v :=
      List.prefix_of_prefix_length_le hu ((List.prefix_append v [c]).trans hv) hlong
    have hle := hprefix.sublist.count_le c
    rw [List.count_append, List.count_singleton_self] at hle
    exact hle
  have hlength : x.length = y.length := by
    rcases Nat.lt_trichotomy x.length y.length with hlt | heq | hlt
    · exact absurd hcount (Nat.ne_of_lt (hinside hx hy hlt))
    · exact heq
    · exact absurd hcount (Nat.ne_of_gt (hinside hy hx hlt))
  have hxs : x <+: s := (List.prefix_append x [c]).trans hx
  have hys : y <+: s := (List.prefix_append y [c]).trans hy
  exact (List.prefix_of_prefix_length_le hxs hys hlength.le).eq_of_length hlength

/-- A part of two joined texts, with its end, is in the first, or it goes on into the second. -/
theorem front_append_cases (h : x ++ [c] <+: y ++ z) :
    x ++ [c] <+: y ∨ ∃ t, x = y ++ t ∧ t ++ [c] <+: z := by
  rcases prefix_append_cases h with hshort | ⟨t, ht, hz⟩
  · exact Or.inl hshort
  rcases List.eq_nil_or_concat' t with rfl | ⟨t, d, rfl⟩
  · rw [List.append_nil] at ht
    exact Or.inl (ht ▸ List.prefix_rfl)
  · rw [← List.append_assoc] at ht
    obtain ⟨rfl, hd⟩ := List.append_inj' ht rfl
    obtain rfl := (List.cons.inj hd).1
    exact Or.inr ⟨t, rfl, hz⟩

/-- A part that ends at a character ends before what does not hold it. -/
theorem front_append_cons_iff (hz : c ∉ z) :
    x ++ [c] <+: y ++ c :: z ↔ x ++ [c] <+: y ++ [c] := by
  have hy : y ++ c :: z = (y ++ [c]) ++ z := by
    rw [List.append_assoc, List.singleton_append]
  constructor
  · intro h
    rw [hy] at h
    rcases front_append_cases h with hshort | ⟨t, -, ht⟩
    · exact hshort
    · exact absurd (ht.subset (List.mem_append_right t List.mem_cons_self)) hz
  · intro h
    exact h.trans (front_self y c z)

/-- What a text with something put in starts with is before the place or, without what was put in,
starts the text as it was. -/
theorem front_insert {before token : List Char} (ht : c ∉ token)
    (h : x ++ [c] <+: before ++ token ++ z) :
    x ++ [c] <+: before ∨ ∃ y, y ++ [c] <+: before ++ z ∧ y.count c = x.count c ∧
      y.length + token.length = x.length ∧ ∀ d ∈ y, d ∈ x := by
  rw [List.append_assoc] at h
  rcases front_append_cases h with hshort | ⟨t, rfl, hrest⟩
  · exact Or.inl hshort
  rcases front_append_cases hrest with hin | ⟨r, rfl, hr⟩
  · exact absurd (hin.subset (List.mem_append_right t List.mem_cons_self)) ht
  -- the part goes on behind the place, through all that was put in there
  refine Or.inr ⟨before ++ r, ?_, ?_, ?_, ?_⟩
  · rw [List.append_assoc, List.prefix_append_right_inj]
    exact hr
  · simp only [List.count_append, List.count_eq_zero_of_not_mem ht, Nat.zero_add]
  · simp only [List.length_append]
    omega
  · intro d hd
    simp only [List.mem_append] at hd ⊢
    exact hd.imp id Or.inr

/-- A part of a text stays in front when something is put in, exactly when that is put in behind
it. -/
theorem front_insert_iff {before token : List Char} (htoken : token ≠ []) (ht : c ∉ token)
    (h : x ++ [c] <+: before ++ z) :
    x ++ [c] <+: before ++ token ++ z ↔ (x ++ [c]).length ≤ before.length := by
  constructor
  · intro hkept
    rcases front_insert ht hkept with hbefore | ⟨y, hy, hcount, hlength, -⟩
    · exact hbefore.length_le
    · have hpos : 0 < token.length := List.length_pos_iff.mpr htoken
      rw [front_unique hy h hcount] at hlength
      omega
  · intro hle
    have hbefore : x ++ [c] <+: before :=
      List.prefix_of_prefix_length_le h (List.prefix_append before z) hle
    rw [List.append_assoc]
    exact hbefore.trans (List.prefix_append _ _)

/-- Two paths with as many steps before the last are one path if the first, with its end, starts what
the second starts. -/
theorem front_path_iff {root root' number token : List Char} (hn : c ∉ number) (ht : c ∉ token)
    (hcount : root'.count c = root.count c) :
    (root ++ c :: number) ++ [c] <+: (root' ++ c :: token) ++ c :: z ↔
      root' = root ∧ number = token := by
  constructor
  · intro h
    have hwhole : root ++ c :: number = root' ++ c :: token := by
      apply front_unique h (front_self _ _ _)
      rw [List.count_append, List.count_append, List.count_cons_self, List.count_cons_self, hcount,
        List.count_eq_zero_of_not_mem hn, List.count_eq_zero_of_not_mem ht]
    have hleft : root' ++ [c] <+: root ++ c :: number := hwhole ▸ front_self _ _ _
    obtain rfl : root' = root := front_unique hleft (front_self _ _ _) hcount
    exact ⟨rfl, (List.cons.inj (List.append_cancel_left hwhole)).2⟩
  · rintro ⟨rfl, rfl⟩
    exact front_self _ _ _

/-- A pattern without the character that begins before a cut at it ends before the cut. -/
theorem infix_of_front {pattern u v : List Char} (hp : c ∉ pattern)
    (h : x ++ c :: y = u ++ pattern ++ v) (hle : u.length ≤ x.length) : pattern <:+: x := by
  rcases List.append_eq_append_iff.mp h with ⟨t, ht, hrest⟩ | ⟨t, ht, -⟩
  · cases t with
    | nil =>
      rw [List.append_nil] at ht
      exact ⟨u, [], by rw [ht, List.append_nil]⟩
    | cons d t =>
      obtain rfl := (List.cons.inj hrest).1
      -- the cut would be inside the pattern
      obtain ⟨w, rfl⟩ : u <+: x := by
        refine List.prefix_of_prefix_length_le (List.prefix_append u pattern) ?_ hle
        rw [ht]
        exact List.prefix_append x _
      rw [List.append_assoc, List.append_cancel_left_eq] at ht
      exact absurd (ht ▸ List.mem_append_right w List.mem_cons_self) hp
  · exact ⟨u, t, ht.symm⟩

/-- A pattern without the character has all its places behind a cut at it exactly when what is in
front of the cut does not hold it. -/
theorem behind_iff {pattern : List Char} (hp : c ∉ pattern) :
    (∀ u v, x ++ c :: z = u ++ pattern ++ v → (x ++ [c]).length ≤ u.length) ↔
      ¬ pattern <:+: x := by
  have hlength : (x ++ [c]).length = x.length + 1 := by
    rw [List.length_append, List.length_singleton]
  rw [hlength]
  constructor
  · rintro hbehind ⟨u, w, rfl⟩
    have hle := hbehind u (w ++ c :: z) (List.append_assoc _ _ _)
    simp only [List.length_append] at hle
    omega
  · intro habsent u v huv
    by_contra hlt
    exact habsent (infix_of_front hp huv (by omega))

/-- A part of a text stays in front when something is put in before the first place of a pattern,
exactly when no place of that begins in the part. -/
theorem front_replaceFirst_iff {pattern token : List Char} (htoken : token ≠ []) (ht : c ∉ token)
    (h : x ++ [c] <+: s) :
    x ++ [c] <+: replaceFirst pattern (token ++ pattern) s ↔
      ∀ u v, s = u ++ pattern ++ v → (x ++ [c]).length ≤ u.length := by
  rcases replaceFirst_cases pattern (token ++ pattern) s with ⟨habsent, he⟩ |
    ⟨before, after, hfirst, he⟩
  · rw [he]
    refine ⟨fun _ u v huv => ?_, fun _ => h⟩
    exact absurd ⟨u, v, huv.symm⟩ habsent
  · rw [hfirst.split, List.append_assoc] at h
    have hsplit : before ++ (token ++ pattern) ++ after = before ++ token ++ (pattern ++ after) := by
      simp only [List.append_assoc]
    rw [he, hsplit, front_insert_iff htoken ht h]
    constructor
    · intro hle u v huv
      exact Nat.le_trans hle (hfirst.least u v huv)
    · intro hbehind
      exact hbehind before after hfirst.split

/-- A character that comes first in a text still does when something is put in before the first
place of a pattern. -/
theorem mem_front_replaceFirst {pattern token : List Char} {d : Char} (ht : c ∉ token)
    (hd : ∀ y, y ++ [c] <+: s → d ∈ y) (h : x ++ [c] <+: replaceFirst pattern (token ++ pattern) s) :
    d ∈ x := by
  rcases replaceFirst_cases pattern (token ++ pattern) s with ⟨-, he⟩ | ⟨before, after, hfirst, he⟩
  · rw [he] at h
    exact hd x h
  · have hsplit : before ++ (token ++ pattern) ++ after = before ++ token ++ (pattern ++ after) := by
      simp only [List.append_assoc]
    rw [hfirst.split, List.append_assoc] at hd
    rw [he, hsplit] at h
    rcases front_insert ht h with hbefore | ⟨y, hy, -, -, hsub⟩
    · exact hd x (hbefore.trans (List.prefix_append _ _))
    · exact hsub d (hd y hy)

end TierHost.Text
