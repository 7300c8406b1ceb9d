import TierHost.Proofs.Text.Pieces
import TierHost.Tier.Config

/-!
The grammar of configurations: dotted names are identifiers joined by single points, and a word is made
of letters and underscores. The checks of a configuration accept this grammar, and beside it texts that
have one line feed more at the end.
-/

namespace TierHost

/-- The text without one line feed at its end, if it has one there. -/
def Text.dropFeed (s : List Char) : List Char := if s.getLast? = some '\n' then s.dropLast else s

namespace Text

theorem dropFeed_eq_self {s : List Char} (h : s.getLast? ≠ some '\n') : dropFeed s = s := if_neg h

theorem dropFeed_concat (s : List Char) : dropFeed (s ++ ['\n']) = s := by
  rw [dropFeed, List.getLast?_concat, if_pos rfl, List.dropLast_concat]

theorem dropFeed_append {s : List Char} (h : s ≠ []) (front : List Char) :
    dropFeed (front ++ s) = front ++ dropFeed s := by
  rw [dropFeed, dropFeed, List.getLast?_append_of_ne_nil front h, List.dropLast_append_of_ne_nil h]
  exact (apply_ite (front ++ ·) _ _ _).symm

theorem dropFeed_cons {c : Char} {s : List Char} (h : ¬ (c = '\n' ∧ s = [])) :
    dropFeed (c :: s) = c :: dropFeed s := by
  by_cases hs : s = []
  · have hlast : [c].getLast? ≠ some '\n' := fun he => h ⟨Option.some.inj he, hs⟩
    rw [hs, dropFeed_eq_self hlast]
    rfl
  · exact dropFeed_append hs [c]

theorem mem_of_mem_dropFeed {c : Char} {s : List Char} (h : c ∈ dropFeed s) : c ∈ s := by
  rw [dropFeed] at h
  split at h
  · exact List.mem_of_mem_dropLast h
  · exact h

/-- What is in a text is in it without a line feed at the end, or is that line feed. -/
theorem mem_dropFeed_or {c : Char} {s : List Char} (h : c ∈ s) :
    c ∈ dropFeed s ∨ c = '\n' ∧ s.getLast? = some '\n' := by
  by_cases hlast : s.getLast? = some '\n'
  · obtain ⟨front, rfl⟩ := List.getLast?_eq_some_iff.mp hlast
    rw [dropFeed_concat]
    exact (List.mem_append.mp h).imp id fun hc => ⟨List.mem_singleton.mp hc, hlast⟩
  · rw [dropFeed_eq_self hlast]
    exact Or.inl h

end Text

namespace Config

open Text

/-- A letter without marks, or an underscore. -/
def NameStart (c : Char) : Prop := ('A' ≤ c ∧ c ≤ 'Z') ∨ ('a' ≤ c ∧ c ≤ 'z') ∨ c = '_'

/-- A character of an identifier. -/
def NameChar (c : Char) : Prop := NameStart c ∨ ('0' ≤ c ∧ c ≤ '9')

/-- An identifier does not start with a digit. -/
def Identifier (s : List Char) : Prop :=
  ∃ c rest, s = c :: rest ∧ NameStart c ∧ ∀ d ∈ rest, NameChar d

/-- One or more identifiers, joined by single points. -/
def Dotted (s : List Char) : Prop :=
  ∃ names, names ≠ [] ∧ (∀ name ∈ names, Identifier name) ∧ s = ['.'].intercalate names

/-- A word is not empty, and holds letters and underscores only. -/
def Word (s : List Char) : Prop := s ≠ [] ∧ ∀ c ∈ s, NameStart c

/-- The configurations that the checks are meant for. -/
structure Wellformed (c : Config) : Prop where
  product : Dotted c.product.toList
  segment : Dotted c.segment.toList
  language : Word c.language.toList
  suffix : c.suffix ≠ ""
  baseline : 0 < c.baseline
  workers : 0 < c.workers
  cacheSize : 0 ≤ c.cacheSize

/-- The configuration whose names in the grammar have lost a line feed at their end. -/
def unfed (c : Config) : Config :=
  { c with
    product := String.ofList (dropFeed c.product.toList)
    segment := String.ofList (dropFeed c.segment.toList)
    language := String.ofList (dropFeed c.language.toList) }

/-- Whether one of the names in the grammar ends in a line feed. -/
def Fed (c : Config) : Prop :=
  ∃ s ∈ [c.product, c.segment, c.language], s.toList.getLast? = some '\n'

theorem isNameStart_iff {c : Char} : isNameStart c = true ↔ NameStart c := by
  have hupper : c.isUpper = true ↔ 'A' ≤ c ∧ c ≤ 'Z' := decide_eq_true_iff
  have hlower : c.isLower = true ↔ 'a' ≤ c ∧ c ≤ 'z' :=
    Bool.and_eq_true_iff.trans (and_congr decide_eq_true_iff decide_eq_true_iff)
  have halpha : c.isAlpha = (c.isUpper || c.isLower) := rfl
  rw [isNameStart, halpha, Bool.or_eq_true, Bool.or_eq_true, hupper, hlower, decide_eq_true_eq,
    NameStart, or_assoc]

theorem isNameChar_iff {c : Char} : isNameChar c = true ↔ NameChar c := by
  have hdigit : c.isDigit = true ↔ '0' ≤ c ∧ c ≤ '9' :=
    Bool.and_eq_true_iff.trans (and_congr decide_eq_true_iff decide_eq_true_iff)
  rw [isNameChar, Bool.or_eq_true, isNameStart_iff, hdigit, NameChar]

theorem not_nameChar_feed : ¬ NameChar '\n' := by
  simp only [NameChar, NameStart]
  decide

theorem not_nameChar_point : ¬ NameChar '.' := by
  simp only [NameChar, NameStart]
  decide

theorem Identifier.nameChar {s : List Char} (h : Identifier s) {c : Char} (hc : c ∈ s) :
    NameChar c := by
  obtain ⟨d, rest, rfl, hstart, hrest⟩ := h
  rcases List.mem_cons.mp hc with rfl | hc
  · exact Or.inl hstart
  · exact hrest c hc

theorem identifier_cons_iff {c : Char} {s : List Char} :
    Identifier (c :: s) ↔ NameStart c ∧ ∀ d ∈ s, NameChar d := by
  constructor
  · rintro ⟨c', rest, heq, hstart, hrest⟩
    cases heq
    exact ⟨hstart, hrest⟩
  · exact fun h => ⟨c, s, rfl, h.1, h.2⟩

theorem dotted_iff_pieces {s : List Char} : Dotted s ↔ ∀ name ∈ pieces '.' s, Identifier name := by
  constructor
  · rintro ⟨names, hne, hnames, rfl⟩
    rwa [pieces_intercalate (fun name hname hpoint =>
      not_nameChar_point ((hnames name hname).nameChar hpoint)) hne]
  · intro h
    refine ⟨pieces '.' s, ?_, h, (intercalate_pieces '.' s).symm⟩
    rw [pieces_eq_splitOn]
    exact List.splitOn_ne_nil '.' s

theorem not_dotted_nil : ¬ Dotted [] := by
  rw [dotted_iff_pieces]
  intro h
  obtain ⟨c, rest, hnil, -⟩ := h [] List.mem_cons_self
  cases hnil

theorem Dotted.of_mem {s : List Char} (h : Dotted s) {c : Char} (hc : c ∈ s) :
    NameChar c ∨ c = '.' := by
  rw [dotted_iff_pieces] at h
  induction s using pieces_induction '.' with
  | last s hs =>
    rw [pieces_of_notMem hs, List.forall_mem_singleton] at h
    exact Or.inl (h.nameChar hc)
  | cut x y hx ih =>
    rw [pieces_append_cons, pieces_of_notMem hx, List.forall_mem_append,
      List.forall_mem_singleton] at h
    rcases List.mem_append.mp hc with hc | hc
    · exact Or.inl (h.1.nameChar hc)
    · rcases List.mem_cons.mp hc with rfl | hc
      · exact Or.inr rfl
      · exact ih h.2 hc

/-- Inside an identifier, what is left up to the next point is made of its characters. -/
theorem isPathFrom_true_append {x y : List Char} (hx : '.' ∉ x) :
    isPathFrom true (x ++ '.' :: y) = true ↔
      (∀ c ∈ x, NameChar c) ∧ isPathFrom false y = true := by
  induction x with
  | nil => simp [isPathFrom]
  | cons c x ih =>
    rw [List.mem_cons, not_or] at hx
    have hfeed : ¬ (c = '\n' && (x ++ '.' :: y).isEmpty) = true := by simp
    rw [List.cons_append, isPathFrom, if_neg hfeed, if_pos rfl, if_neg (Ne.symm hx.1),
      Bool.and_eq_true, ih hx.2, isNameChar_iff, List.forall_mem_cons, and_assoc]

theorem isPathFrom_true_last {x : List Char} (hx : '.' ∉ x) :
    isPathFrom true x = true ↔ ∀ c ∈ dropFeed x, NameChar c := by
  induction x with
  | nil => simp [isPathFrom, dropFeed]
  | cons c x ih =>
    rw [List.mem_cons, not_or] at hx
    by_cases hfeed : c = '\n' ∧ x = []
    · obtain ⟨rfl, rfl⟩ := hfeed
      simp [isPathFrom, dropFeed]
    · have hfeed' : ¬ (c = '\n' && x.isEmpty) = true := by simpa using hfeed
      rw [isPathFrom, if_neg hfeed', if_pos rfl, if_neg (Ne.symm hx.1), Bool.and_eq_true, ih hx.2,
        isNameChar_iff, dropFeed_cons hfeed, List.forall_mem_cons]

/-- At the start of an identifier its first character decides, and what follows it is inside it. -/
theorem isPathFrom_false_cons {c : Char} {s : List Char} :
    isPathFrom false (c :: s) = true ↔ NameStart c ∧ isPathFrom true s = true := by
  by_cases hfeed : c = '\n' ∧ s = []
  · obtain ⟨rfl, rfl⟩ := hfeed
    exact iff_of_false (by decide) fun h => not_nameChar_feed (Or.inl h.1)
  · have hfeed' : ¬ (c = '\n' && s.isEmpty) = true := by simpa using hfeed
    rw [isPathFrom, if_neg hfeed']
    simp [isNameStart_iff]

/-- The check of a name accepts the dotted names, and these with one line feed behind them. -/
theorem isPathFrom_iff (s : List Char) : isPathFrom false s = true ↔ Dotted (dropFeed s) := by
  induction s using pieces_induction '.' with
  | last s hs =>
    cases s with
    | nil => exact iff_of_false (by decide) not_dotted_nil
    | cons c s =>
      have hpoint : '.' ∉ dropFeed (c :: s) := fun h => hs (mem_of_mem_dropFeed h)
      rw [isPathFrom_false_cons, isPathFrom_true_last (List.not_mem_of_not_mem_cons hs),
        dotted_iff_pieces, pieces_of_notMem hpoint, List.forall_mem_singleton]
      by_cases hfeed : c = '\n' ∧ s = []
      · obtain ⟨rfl, rfl⟩ := hfeed
        refine iff_of_false (fun h => not_nameChar_feed (Or.inl h.1)) ?_
        rintro ⟨c, rest, hnil, -⟩
        cases hnil
      · rw [dropFeed_cons hfeed, identifier_cons_iff]
  | cut x y hx ih =>
    -- the first identifier ends at the point, and behind it a name starts again
    have hdrop : dropFeed (x ++ '.' :: y) = x ++ '.' :: dropFeed y := by
      rw [dropFeed_append (List.cons_ne_nil '.' y), dropFeed_cons fun h => by cases h.1]
    rw [hdrop, dotted_iff_pieces, pieces_append_cons, pieces_of_notMem hx, List.forall_mem_append,
      List.forall_mem_singleton, ← dotted_iff_pieces, ← ih]
    cases x with
    | nil =>
      refine iff_of_false (fun h => ?_) fun h => ?_
      · exact not_nameChar_point (Or.inl (isPathFrom_false_cons.mp h).1)
      · obtain ⟨c, rest, hnil, -⟩ := h.1
        cases hnil
    | cons c x =>
      rw [List.cons_append, isPathFrom_false_cons,
        isPathFrom_true_append (List.not_mem_of_not_mem_cons hx), identifier_cons_iff, and_assoc]

theorem isIdentifierPath_iff {s : String} :
    isIdentifierPath s = true ↔ Dotted (dropFeed s.toList) :=
  isPathFrom_iff s.toList

/-- The check of a word accepts the words, and these with one line feed behind them. -/
theorem isWord_iff {s : String} : isWord s = true ↔ Word (dropFeed s.toList) := by
  have hword (cs : List Char) :
      (!cs.isEmpty && cs.all isNameStart) = true ↔ Word cs.reverse := by
    simp [Word, isNameStart_iff]
  unfold isWord
  dsimp only
  split
  · next rest hs =>
    have hlist : s.toList = rest.reverse ++ ['\n'] := by
      rw [← List.reverse_reverse s.toList, hs, List.reverse_cons]
    rw [hword, hlist, dropFeed_concat]
  · next hs =>
    have hlast : s.toList.getLast? ≠ some '\n' := by
      intro h
      obtain ⟨front, hfront⟩ := List.getLast?_eq_some_iff.mp h
      exact hs front.reverse (by rw [hfront, List.reverse_concat])
    rw [hword, List.reverse_reverse, dropFeed_eq_self hlast]

/-- The checks come to the grammar, each but for a line feed. -/
theorem problems_eq_nil_iff {c : Config} : c.problems = [] ↔ c.unfed.Wellformed := by
  have hcheck (accepted : Bool) (p : Problem) :
      (if accepted then [] else [p]) = [] ↔ accepted = true := by
    cases accepted <;> simp
  have hbound (q : Prop) [Decidable q] (p : Problem) : (if q then [p] else []) = [] ↔ ¬ q := by
    by_cases hq : q <;> simp [hq]
  simp only [problems, List.append_eq_nil_iff, hcheck, hbound, isIdentifierPath_iff, isWord_iff]
  constructor
  · rintro ⟨⟨⟨⟨⟨⟨hproduct, hsegment⟩, hlanguage⟩, hbaseline⟩, hsuffix⟩, hworkers⟩, hcache⟩
    exact {
      product := by rwa [unfed, String.toList_ofList]
      segment := by rwa [unfed, String.toList_ofList]
      language := by rwa [unfed, String.toList_ofList]
      suffix := fun h => hsuffix (String.isEmpty_iff.mpr h)
      baseline := Int.not_le.mp hbaseline
      workers := Int.not_le.mp hworkers
      cacheSize := Int.not_lt.mp hcache }
  · intro h
    have hproduct := h.product
    have hsegment := h.segment
    have hlanguage := h.language
    rw [unfed, String.toList_ofList] at hproduct hsegment hlanguage
    refine ⟨⟨⟨⟨⟨⟨hproduct, hsegment⟩, hlanguage⟩, ?_⟩, ?_⟩, ?_⟩, ?_⟩
    · exact Int.not_le.mpr h.baseline
    · exact fun hempty => h.suffix (String.isEmpty_iff.mp hempty)
    · exact Int.not_le.mpr h.workers
    · exact Int.not_lt.mpr h.cacheSize

theorem unfed_eq_self {c : Config} (h : ¬ c.Fed) : c.unfed = c := by
  have hname (s : String) (hs : s ∈ [c.product, c.segment, c.language]) :
      String.ofList (dropFeed s.toList) = s := by
    rw [dropFeed_eq_self fun hlast => h ⟨s, hs, hlast⟩, String.ofList_toList]
  rw [unfed, hname c.product (by simp), hname c.segment (by simp), hname c.language (by simp)]

/-- A name of the grammar ends in one of its characters. -/
theorem Wellformed.not_fed {c : Config} (h : c.Wellformed) : ¬ c.Fed := by
  rintro ⟨s, hs, hlast⟩
  have hmem := List.mem_of_getLast? hlast
  simp only [List.mem_cons, List.not_mem_nil, or_false] at hs
  rcases hs with rfl | rfl | rfl
  · exact (h.product.of_mem hmem).elim not_nameChar_feed (by decide)
  · exact (h.segment.of_mem hmem).elim not_nameChar_feed (by decide)
  · exact not_nameChar_feed (Or.inl (h.language.2 _ hmem))

end Config

end TierHost
