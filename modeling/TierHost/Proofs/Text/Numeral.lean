import TierHost.Proofs.Mapping
import TierHost.Proofs.Text.Decimal
import TierHost.Proofs.Text.Pieces
import TierHost.Text.Numeral
import Mathlib.Data.List.DropRight

/-!
How whole numbers are written in text without a margin, that the writing of a number is read back, and
which numbers have too many digits for either.
-/

namespace TierHost.Text

theorem trimBy_eq (p : Char → Bool) (s : List Char) : trimBy p s = (s.dropWhile p).rdropWhile p :=
  rfl

/-- A text is trimmed if it neither starts nor ends with a character of the class. -/
theorem trimBy_eq_self_iff {p : Char → Bool} {s : List Char} :
    trimBy p s = s ↔ (∀ c ∈ s.head?, p c = false) ∧ ∀ c ∈ s.getLast?, p c = false := by
  have hhead : s.dropWhile p = s ↔ ∀ c ∈ s.head?, p c = false := by
    cases s with
    | nil => simp
    | cons c cs => simp
  have hlast : s.rdropWhile p = s ↔ ∀ c ∈ s.getLast?, p c = false := by
    rw [List.rdropWhile_eq_self_iff]
    cases s using List.reverseRecOn with
    | nil => simp
    | append_singleton cs c => simp
  rw [trimBy_eq, ← hhead, ← hlast]
  constructor
  · intro h
    -- neither end can give anything back that the other one dropped
    have hlength : (s.dropWhile p).length = s.length := by
      apply Nat.le_antisymm (List.length_dropWhile_le p s)
      calc s.length = ((s.dropWhile p).rdropWhile p).length := by rw [h]
        _ ≤ (s.dropWhile p).length := (List.rdropWhile_prefix p _).length_le
    have hfront : s.dropWhile p = s := (List.dropWhile_suffix p).eq_of_length hlength
    exact ⟨hfront, by rwa [hfront] at h⟩
  · intro h
    rw [h.1, h.2]

theorem trimBy_trimmed (p : Char → Bool) (s : List Char) :
    (∀ c ∈ (trimBy p s).head?, p c = false) ∧ ∀ c ∈ (trimBy p s).getLast?, p c = false := by
  rw [trimBy_eq]
  constructor
  · intro c hc
    obtain ⟨rest, hrest⟩ := List.rdropWhile_prefix p (s.dropWhile p)
    have hdropped : (s.dropWhile p).head? = some c := by
      rw [← hrest, List.head?_append, Option.mem_def.mp hc]
      rfl
    have hhead := List.head?_dropWhile_not p s
    rw [hdropped] at hhead
    exact hhead
  · intro c hc
    obtain ⟨hne, rfl⟩ := List.mem_getLast?_eq_getLast hc
    exact Bool.eq_false_iff.mpr (List.rdropWhile_last_not p _ hne)

/-- The margin of a number is among the blanks, so that trimmed text has none. -/
theorem trimBy_margin_trim (s : String) :
    trimBy isNumeralMargin (trim s).toList = (trim s).toList := by
  have hblank {c : Char} (h : isBlank c = false) : isNumeralMargin c = false := by
    rw [isNumeralMargin, h, Bool.false_and]
  obtain ⟨hhead, hlast⟩ := trimBy_trimmed isBlank s.toList
  rw [trim, String.toList_ofList, trimBy_eq_self_iff]
  exact ⟨fun c hc => hblank (hhead c hc), fun c hc => hblank (hlast c hc)⟩

theorem trim_eq_self_iff {s : String} :
    trim s = s ↔
      (∀ c ∈ s.toList.head?, isBlank c = false) ∧ ∀ c ∈ s.toList.getLast?, isBlank c = false := by
  rw [← trimBy_eq_self_iff, trim]
  constructor
  · intro h
    rw [← String.toList_inj, String.toList_ofList] at h
    exact h
  · intro h
    rw [h, String.ofList_toList]

/-- The printable characters of ASCII other than the space are no blanks. -/
theorem not_isBlank_of_printable {c : Char} (hfirst : 33 ≤ c.toNat) (hlast : c.toNat ≤ 126) :
    isBlank c = false := by
  rw [isBlank, Ranges.has, List.any_eq_false]
  intro range hrange
  have hapart : range.2 < 33 ∨ 126 < range.1 := by
    have hall : ∀ r ∈ blanks, r.2 < 33 ∨ 126 < r.1 := by decide
    exact hall range hrange
  rw [Bool.and_eq_true, decide_eq_true_eq, decide_eq_true_eq]
  omega

theorem digitValue?_of_isDigit {c : Char} (h : c.isDigit = true) :
    digitValue? c = some (c.toNat - '0'.toNat) := by
  have hlow : 0x30 ≤ c.toNat := of_decide_eq_true (Bool.and_eq_true_iff.mp h).1
  have hhigh : c.toNat ≤ 0x39 := of_decide_eq_true (Bool.and_eq_true_iff.mp h).2
  have hfind : (decimalZeros.find? fun z => z ≤ c.toNat && c.toNat ≤ z + 9) = some 0x30 := by
    apply List.find?_cons_of_pos
    rw [decide_eq_true hlow, decide_eq_true hhigh]
    rfl
  rw [digitValue?, hfind]
  rfl

theorem digitRun_cons_cons {c d : Char} (hd : d ≠ '_') (s : List Char) :
    digitRun (c :: d :: s) = do return (← digitValue? c) :: (← digitRun (d :: s)) := by
  rw [digitRun]
  · exact fun h => List.cons_ne_nil d s h
  · exact fun rest h => hd (List.cons.inj h).1

theorem digitRun_singleton (c : Char) : digitRun [c] = [c].mapM digitValue? := by
  rw [digitRun, List.mapM_cons, List.mapM_nil]
  cases digitValue? c <;> rfl

theorem digitRun_of_notMem {s : List Char} (hs : '_' ∉ s) (hne : s ≠ []) :
    digitRun s = s.mapM digitValue? := by
  induction s with
  | nil => exact absurd rfl hne
  | cons c s ih =>
    cases s with
    | nil => exact digitRun_singleton c
    | cons d s =>
      rw [List.mem_cons, not_or] at hs
      have hd : d ≠ '_' := fun h => hs.2 (h ▸ List.mem_cons_self)
      rw [digitRun_cons_cons hd, ih hs.2 (List.cons_ne_nil d s), List.mapM_cons (a := c)]

theorem digitRun_cons_eq_none {c : Char} (hc : digitValue? c = none) (s : List Char) :
    digitRun (c :: s) = none := by
  cases s with
  | nil => simp [digitRun, hc]
  | cons d s =>
    by_cases hd : d = '_'
    · rw [hd, digitRun, hc]
      rfl
    · rw [digitRun_cons_cons hd, hc]
      rfl

/-- Behind a group of digits a mark is skipped. -/
theorem digitRun_append_cons {x : List Char} (hx : '_' ∉ x) (hne : x ≠ []) (y : List Char) :
    digitRun (x ++ '_' :: y) = do return (← x.mapM digitValue?) ++ (← digitRun y) := by
  induction x with
  | nil => exact absurd rfl hne
  | cons c x ih =>
    cases x with
    | nil =>
      rw [List.singleton_append, digitRun, List.mapM_cons, List.mapM_nil]
      cases digitValue? c <;> rfl
    | cons d x =>
      rw [List.mem_cons, not_or] at hx
      have hd : d ≠ '_' := fun h => hx.2 (h ▸ List.mem_cons_self)
      rw [List.cons_append, List.cons_append, digitRun_cons_cons hd, ← List.cons_append,
        ih hx.2 (List.cons_ne_nil d x)]
      simp only [List.mapM_cons, bind_assoc, pure_bind, List.cons_append]

/-- The digits of a run are those of its groups, and no group between marks is empty. -/
theorem digitRun_eq_some_iff {s : List Char} {ds : List Nat} :
    digitRun s = some ds ↔
      [] ∉ pieces '_' s ∧ (pieces '_' s).flatten.mapM digitValue? = some ds := by
  induction s using pieces_induction '_' generalizing ds with
  | last s hs =>
    rw [pieces_of_notMem hs, List.flatten_singleton, List.mem_singleton]
    by_cases hne : s = []
    · rw [hne]
      exact iff_of_false (fun h => by cases h) fun h => h.1 rfl
    · rw [digitRun_of_notMem hs hne, and_iff_right (Ne.symm hne)]
  | cut x y hx ih =>
    rw [pieces_append_cons, pieces_of_notMem hx, List.singleton_append, List.mem_cons, not_or,
      List.flatten_cons]
    cases x with
    | nil =>
      rw [List.nil_append, digitRun_cons_eq_none (by decide)]
      exact iff_of_false (fun h => by cases h) fun h => h.1.1 rfl
    | cons c x =>
      have hne : [] ≠ c :: x := (List.cons_ne_nil c x).symm
      rw [digitRun_append_cons hx hne.symm, List.mapM_append, and_iff_right hne]
      simp only [bind, Option.bind_eq_some_iff, ih]
      constructor
      · rintro ⟨ds₁, h₁, ds₂, ⟨hempty, h₂⟩, h⟩
        exact ⟨hempty, ds₁, h₁, ds₂, h₂, h⟩
      · rintro ⟨hempty, ds₁, h₁, ds₂, h₂, h⟩
        exact ⟨ds₁, h₁, ds₂, ⟨hempty, h₂⟩, h⟩

/-- The writings of a whole number: after a sign, which may be missing, groups of digits with single
underscores between them, and no more digits than may be read. -/
def Numeral.Writes (s : List Char) (n : Int) : Prop :=
  ∃ sign groups ds, s = sign ++ ['_'].intercalate groups ∧ groups ≠ [] ∧ [] ∉ groups ∧
    groups.flatten.mapM digitValue? = some ds ∧ ds.length ≤ digitLimit ∧
    ((sign = [] ∨ sign = ['+']) ∧ n = ofDigits ds ∨ sign = ['-'] ∧ n = -(ofDigits ds : Int))

/-- Splitting off the sign undoes putting one in front of digits. -/
theorem takeSign_eq_iff {s body : List Char} {negative : Bool} {ds : List Nat}
    (hbody : digitRun body = some ds) :
    takeSign s = (negative, body) ↔
      ∃ sign, s = sign ++ body ∧
        ((sign = [] ∨ sign = ['+']) ∧ negative = false ∨ sign = ['-'] ∧ negative = true) := by
  constructor
  · intro h
    rw [takeSign.eq_def] at h
    split at h
    · cases h
      exact ⟨['-'], rfl, Or.inr ⟨rfl, rfl⟩⟩
    · cases h
      exact ⟨['+'], rfl, Or.inl ⟨Or.inr rfl, rfl⟩⟩
    · cases h
      exact ⟨[], rfl, Or.inl ⟨Or.inl rfl, rfl⟩⟩
  · rintro ⟨sign, rfl, ⟨rfl | rfl, rfl⟩ | ⟨rfl, rfl⟩⟩
    · rw [List.nil_append, takeSign.eq_def]
      -- digits do not start with a sign
      split
      · rw [digitRun_cons_eq_none (by decide)] at hbody
        cases hbody
      · rw [digitRun_cons_eq_none (by decide)] at hbody
        cases hbody
      · rfl
    · rfl
    · rfl

theorem Numeral.read_eq_value_iff_digitRun {s : List Char} (hs : trimBy isNumeralMargin s = s)
    {n : Int} :
    Numeral.read s = .value n ↔
      ∃ negative body ds, takeSign s = (negative, body) ∧ digitRun body = some ds ∧
        ds.length ≤ digitLimit ∧ n = if negative then -(ofDigits ds : Int) else ofDigits ds := by
  rw [read, hs]
  generalize takeSign s = parts
  obtain ⟨negative, body⟩ := parts
  dsimp only
  cases hrun : digitRun body with
  | none => simp [hrun]
  | some ds =>
    dsimp only
    by_cases hlong : digitLimit < ds.length
    · rw [if_pos hlong]
      simp [hrun, Nat.not_le.mpr hlong]
    · rw [if_neg hlong]
      simp [hrun, Nat.not_lt.mp hlong, eq_comm]

/-- A text without a margin is read as the number that it writes. -/
theorem Numeral.read_eq_value_iff {s : List Char} (hs : trimBy isNumeralMargin s = s) {n : Int} :
    Numeral.read s = .value n ↔ Writes s n := by
  rw [read_eq_value_iff_digitRun hs]
  constructor
  · rintro ⟨negative, body, ds, htake, hrun, hlength, hn⟩
    obtain ⟨sign, hsplit, hsign⟩ := (takeSign_eq_iff hrun).mp htake
    obtain ⟨hgroups, hdigits⟩ := digitRun_eq_some_iff.mp hrun
    refine ⟨sign, pieces '_' body, ds, ?_, ?_, hgroups, hdigits, hlength, ?_⟩
    · rwa [intercalate_pieces]
    · rw [pieces_eq_splitOn]
      exact List.splitOn_ne_nil '_' body
    · rcases hsign with ⟨hsign, rfl⟩ | ⟨hsign, rfl⟩
      · exact Or.inl ⟨hsign, hn⟩
      · exact Or.inr ⟨hsign, hn⟩
  · rintro ⟨sign, groups, ds, hsplit, hne, hgroups, hdigits, hlength, hsign⟩
    have hmark : digitValue? '_' = none := by decide
    have hplain : ∀ group ∈ groups, '_' ∉ group := by
      intro group hgroup hmem
      rw [mapM_eq_none (List.mem_flatten.mpr ⟨group, hgroup, hmem⟩) hmark] at hdigits
      cases hdigits
    have hrun : digitRun (['_'].intercalate groups) = some ds := by
      rw [digitRun_eq_some_iff, pieces_intercalate hplain hne]
      exact ⟨hgroups, hdigits⟩
    rcases hsign with ⟨hsign, hn⟩ | ⟨hsign, hn⟩
    · refine ⟨false, _, ds, ?_, hrun, hlength, hn⟩
      exact (takeSign_eq_iff hrun).mpr ⟨sign, hsplit, Or.inl ⟨hsign, rfl⟩⟩
    · refine ⟨true, _, ds, ?_, hrun, hlength, hn⟩
      exact (takeSign_eq_iff hrun).mpr ⟨sign, hsplit, Or.inr ⟨hsign, rfl⟩⟩

theorem Numeral.read_trim_iff {s : String} {n : Int} :
    Numeral.read (trim s).toList = .value n ↔ Writes (trim s).toList n :=
  read_eq_value_iff (trimBy_margin_trim s)

theorem ofDigits_map_toNat (s : List Char) (n : Nat) :
    (s.map fun c => c.toNat - '0'.toNat).foldl (fun n d => 10 * n + d) n =
      Nat.ofDigitChars 10 s n := by
  induction s generalizing n with
  | nil => rfl
  | cons c s ih => rw [List.map_cons, List.foldl_cons, ih, Nat.ofDigitChars_cons]

theorem toList_toString_int (n : Int) :
    ∃ sign : List Char, (toString n).toList = sign ++ Nat.toDigits 10 n.natAbs ∧
      (sign = [] ∧ n = n.natAbs ∨ sign = ['-'] ∧ n = -(n.natAbs : Int)) := by
  cases n with
  | ofNat m => exact ⟨[], toList_toString m, Or.inl ⟨rfl, rfl⟩⟩
  | negSucc m =>
    refine ⟨['-'], ?_, Or.inr ⟨rfl, rfl⟩⟩
    change ("-" ++ toString (m + 1)).toList = '-' :: Nat.toDigits 10 (m + 1)
    rw [String.toList_append, toList_toString]
    rfl

theorem mapM_digitValue?_of_isDigit {s : List Char} (h : ∀ c ∈ s, c.isDigit = true) :
    s.mapM digitValue? = some (s.map fun c => c.toNat - '0'.toNat) :=
  mapM_eq_some fun c hc => digitValue?_of_isDigit (h c hc)

theorem not_isBlank_of_isDigit {c : Char} (h : c.isDigit = true) : isBlank c = false := by
  have hfirst : 48 ≤ c.toNat := of_decide_eq_true (Bool.and_eq_true_iff.mp h).1
  have hlast : c.toNat ≤ 57 := of_decide_eq_true (Bool.and_eq_true_iff.mp h).2
  exact not_isBlank_of_printable (by omega) (by omega)

theorem trim_of_isDigit {s : String} (h : ∀ c ∈ s.toList, c.isDigit = true) : trim s = s := by
  rw [trim_eq_self_iff]
  exact ⟨fun c hc => not_isBlank_of_isDigit (h c (List.mem_of_mem_head? hc)),
    fun c hc => not_isBlank_of_isDigit (h c (List.mem_of_mem_getLast? hc))⟩

/-- Plain digits are read as the number that they write, unless there are too many. -/
theorem Numeral.read_of_isDigit {s : String} (hne : s.toList ≠ [])
    (h : ∀ c ∈ s.toList, c.isDigit = true) :
    Numeral.read s.toList =
      if digitLimit < s.toList.length then .tooLong s.toList.length
      else .value (Nat.ofDigitChars 10 s.toList 0) := by
  have hmargin : trimBy isNumeralMargin s.toList = s.toList := by
    rw [← trim_of_isDigit h]
    exact trimBy_margin_trim s
  have hplain : '_' ∉ s.toList := fun hmem => absurd (h '_' hmem) (by decide)
  have hrun := (digitRun_of_notMem hplain hne).trans (mapM_digitValue?_of_isDigit h)
  have hsign : takeSign s.toList = (false, s.toList) :=
    (takeSign_eq_iff hrun).mpr ⟨[], rfl, Or.inl ⟨Or.inl rfl, rfl⟩⟩
  rw [read, hmargin, hsign]
  dsimp only
  rw [hrun]
  dsimp only
  rw [List.length_map, ofDigits, ofDigits_map_toNat, if_neg Bool.false_ne_true]

/-- The usual writing of a number that is not too long writes it. -/
theorem Numeral.writes_toString {n : Int} (h : (Nat.toDigits 10 n.natAbs).length ≤ digitLimit) :
    Writes (toString n).toList n := by
  obtain ⟨sign, hsplit, hsign⟩ := toList_toString_int n
  let digits := Nat.toDigits 10 n.natAbs
  let ds := digits.map fun c => c.toNat - '0'.toNat
  have hvalue : ofDigits ds = n.natAbs := by
    calc ofDigits ds = Nat.ofDigitChars 10 digits 0 := ofDigits_map_toNat digits 0
      _ = n.natAbs := Nat.ofDigitChars_ten_toDigits
  have hdigits : digits.mapM digitValue? = some ds :=
    mapM_digitValue?_of_isDigit fun c hc =>
      Nat.isDigit_of_mem_toDigits (by decide) (by decide) hc
  refine ⟨sign, [digits], ds, ?_, List.cons_ne_nil digits [], ?_, ?_, ?_, ?_⟩
  · rw [hsplit]
    simp [digits]
  · rw [List.mem_singleton]
    exact Nat.toDigits_ne_nil.symm
  · rw [List.flatten_singleton, hdigits]
  · rw [List.length_map]
    exact h
  · rw [hvalue]
    exact hsign.imp (fun h => ⟨Or.inl h.1, h.2⟩) id

theorem trim_toString (n : Int) : trim (toString n) = toString n := by
  have hvisible : ∀ c ∈ (toString n).toList, isBlank c = false := by
    obtain ⟨sign, hsplit, hsign⟩ := toList_toString_int n
    rw [hsplit]
    intro c hc
    rcases List.mem_append.mp hc with hc | hc
    · rcases hsign with ⟨rfl, -⟩ | ⟨rfl, -⟩
      · cases hc
      · rw [List.mem_singleton.mp hc]
        decide
    · exact not_isBlank_of_isDigit (Nat.isDigit_of_mem_toDigits (by decide) (by decide) hc)
  rw [trim_eq_self_iff]
  exact ⟨fun c hc => hvisible c (List.mem_of_mem_head? hc),
    fun c hc => hvisible c (List.mem_of_mem_getLast? hc)⟩

theorem write?_of_length_le {n : Int} (h : (Nat.toDigits 10 n.natAbs).length ≤ digitLimit) :
    write? n = some (toString n) :=
  if_neg (Nat.not_lt.mpr h)

theorem write?_eq_none_iff {n : Int} : write? n = none ↔ 10 ^ digitLimit ≤ n.natAbs := by
  have hlength : (Nat.toDigits 10 n.natAbs).length ≤ digitLimit ↔ n.natAbs < 10 ^ digitLimit :=
    Nat.length_toDigits_le_iff (by decide) (by decide)
  by_cases h : (Nat.toDigits 10 n.natAbs).length ≤ digitLimit
  · rw [write?_of_length_le h]
    exact iff_of_false (Option.some_ne_none _) (Nat.not_le.mpr (hlength.mp h))
  · rw [write?, if_pos (Nat.not_le.mp h)]
    exact iff_of_true rfl (Nat.not_lt.mp fun hlt => h (hlength.mpr hlt))

end TierHost.Text
