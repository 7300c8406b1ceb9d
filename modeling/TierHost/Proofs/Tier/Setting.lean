import TierHost.Proofs.Text.Numeral
import TierHost.Proofs.Tier.Rename
import TierHost.Tier.Options

/-!
What one host option does to a configuration: it is foreign, it is at fault, or it sets the field that
its key names.
-/

namespace TierHost

/-- The values without a text are the numbers with too many digits. -/
theorem Value.display?_eq_none_iff {v : Value} :
    v.display? = none ↔ ∃ n, v = .whole n ∧ 10 ^ Text.digitLimit ≤ n.natAbs := by
  cases v with
  | whole n => simp [display?, Text.write?_eq_none_iff]
  | text s => simp [display?]
  | flag b => simp [display?]
  | real x => simp [display?]
  | absent => simp [display?]

theorem Value.literal?_eq_none_iff {v : Value} : v.literal? = none ↔ v.display? = none := by
  cases v with
  | text s => exact iff_of_false (Option.some_ne_none _) (Option.some_ne_none _)
  | whole n => rfl
  | flag b => rfl
  | real x => rfl
  | absent => rfl

namespace Config

open Text

/-- The keys of a name, plain and of a build property. -/
def Spells (key name : String) : Prop :=
  key = optionMark ++ name ∨ key = propertyMark ++ optionMark ++ name

/-- What the value of an option gives a field: trimmed text, or the number that the text writes. -/
def Field.Reads (f : Field) (v w : Value) : Prop :=
  ∃ text, v.display? = some text ∧
    if f.isWhole then ∃ n, Numeral.Writes (trim text).toList n ∧ w = .whole n
    else w = .text (trim text)

/-- Whether a key of the generator names no field. -/
def Unknown (key : String) : Prop := ∃ name, Spells key name ∧ ∀ f : Field, f.name ≠ name

/-- Whether a key names a field for numbers, and its value has a text that is none that can be read. -/
def NotInteger (key : String) (v : Value) : Prop :=
  ∃ (f : Field) (text : String), Spells key f.name ∧ f.isWhole = true ∧ v.display? = some text ∧
    ∀ n, ¬ Numeral.Writes (trim text).toList n

/-- Whether a key names a field, and its value is a number with too many digits for a text. -/
def Unwritable (key : String) (v : Value) : Prop :=
  ∃ (f : Field) (n : Int), Spells key f.name ∧ v = .whole n ∧ 10 ^ digitLimit ≤ n.natAbs

/-- Whether an option is at fault. -/
def Faulty (key : String) (v : Value) : Prop := Unknown key ∨ NotInteger key v ∨ Unwritable key v

/-- What an option at fault is answered with. -/
def Fault (key : String) (v : Value) (e : OptionError) : Prop :=
  Unknown key ∧ e = .failed (.unknownOption key) ∨
    (NotInteger key v ∧ ∃ literal, v.literal? = some literal ∧
      e = .failed (.notInteger key literal)) ∨
    Unwritable key v ∧ e = .unwritable

theorem strip_eq_some_iff {mark s : List Char} {name : String} :
    (if mark.isPrefixOf s then some (String.ofList (s.drop mark.length)) else none) = some name ↔
      s = mark ++ name.toList := by
  constructor
  · intro h
    split at h
    · next hmark =>
      obtain ⟨rest, rfl⟩ := List.isPrefixOf_iff_prefix.mp hmark
      rw [List.drop_left, Option.some.injEq] at h
      rw [← h, String.toList_ofList]
    · cases h
  · intro h
    rw [h, if_pos (List.isPrefixOf_iff_prefix.mpr (List.prefix_append _ _)), List.drop_left,
      String.ofList_toList]

theorem optionName?_eq_some_iff {key name : String} :
    optionName? key = some name ↔ Spells key name := by
  -- no plain key starts as the key of a build property does
  have hmarks (s t : List Char) : optionMark.toList ++ s ≠ propertyMark.toList ++ t := by
    intro h
    exact absurd (List.cons.inj h).1 (by decide)
  rw [optionName?, strip_eq_some_iff, Spells, ← String.toList_inj, ← String.toList_inj,
    String.toList_append, String.toList_append, String.toList_append, List.append_assoc]
  by_cases hp : propertyMark.toList <+: key.toList
  · obtain ⟨rest, hrest⟩ := hp
    rw [← hrest, Rename.dropLeading_append, List.append_cancel_left_eq]
    exact (or_iff_right fun h => hmarks _ _ h.symm).symm
  · rw [dropLeading, if_neg fun h => hp (List.isPrefixOf_iff_prefix.mp h)]
    exact (or_iff_left fun h => hp ⟨_, h.symm⟩).symm

theorem optionName?_eq_none_iff {key : String} :
    optionName? key = none ↔ ∀ name, ¬ Spells key name := by
  simp only [← optionName?_eq_some_iff, Option.eq_none_iff_forall_ne_some, ne_eq]

theorem Spells.unique {key name name' : String} (h : Spells key name) (h' : Spells key name') :
    name = name' := by
  rw [← optionName?_eq_some_iff] at h h'
  exact Option.some.inj (h.symm.trans h')

theorem Field.ofName?_name (f : Field) : ofName? f.name = some f := by
  cases f <;> decide

theorem Field.ofName?_eq_some_iff {s : String} {f : Field} : ofName? s = some f ↔ f.name = s := by
  constructor
  · intro h
    have hfound := List.find?_some (p := fun f : Field => f.name = s) h
    exact of_decide_eq_true hfound
  · intro h
    rw [← h, ofName?_name]

theorem Field.ofName?_eq_none_iff {s : String} : ofName? s = none ↔ ∀ f : Field, f.name ≠ s := by
  simp only [ne_eq, ← ofName?_eq_some_iff, Option.eq_none_iff_forall_ne_some]

theorem Spells.field_unique {key : String} {f g : Field} (h : Spells key f.name)
    (h' : Spells key g.name) : f = g := by
  have hname := h.unique h'
  exact Option.some.inj ((Field.ofName?_eq_some_iff.mpr rfl).symm.trans
    (Field.ofName?_eq_some_iff.mpr hname.symm))

/-- A configuration is what its fields are. -/
theorem ext_value {c d : Config} (h : ∀ f, c.value f = d.value f) : c = d := by
  cases c
  cases d
  simp only [Config.mk.injEq]
  exact ⟨Value.text.inj (h .product), Value.text.inj (h .segment), Value.text.inj (h .language),
    Value.whole.inj (h .baseline), Value.text.inj (h .suffix), Value.text.inj (h .mark),
    Value.text.inj (h .extension), Value.whole.inj (h .workers), Value.whole.inj (h .cacheSize)⟩

theorem value_setText (c : Config) (s : String) {f : Field} (h : f.isWhole = false) (g : Field) :
    (c.setText s f).value g = if g = f then .text s else c.value g := by
  cases f
  case baseline | workers | cacheSize => cases h
  all_goals cases g <;> rfl

theorem value_setWhole (c : Config) (n : Int) {f : Field} (h : f.isWhole = true) (g : Field) :
    (c.setWhole n f).value g = if g = f then .whole n else c.value g := by
  cases f
  case baseline | workers | cacheSize => cases g <;> rfl
  all_goals cases h

theorem Field.Reads.unique {f : Field} {v w w' : Value} (h : f.Reads v w) (h' : f.Reads v w') :
    w = w' := by
  obtain ⟨text, htext, h⟩ := h
  obtain ⟨text', htext', h'⟩ := h'
  obtain rfl := Option.some.inj (htext.symm.trans htext')
  split at h
  · next hwhole =>
    rw [if_pos hwhole] at h'
    obtain ⟨n, hn, rfl⟩ := h
    obtain ⟨n', hn', rfl⟩ := h'
    rw [← Numeral.read_trim_iff] at hn hn'
    rw [Numeral.value.inj (hn.symm.trans hn')]
  · next hwhole =>
    rw [if_neg hwhole] at h'
    rw [h, h']

theorem Unknown.not_spells {key : String} (h : Unknown key) (f : Field) : ¬ Spells key f.name := by
  obtain ⟨name, hspells, hname⟩ := h
  intro hf
  exact hname f (hf.unique hspells)

theorem unwritable_iff {key : String} {v : Value} :
    Unwritable key v ↔ (∃ f : Field, Spells key f.name) ∧ v.display? = none := by
  rw [Value.display?_eq_none_iff, ← exists_and_right]
  simp only [Unwritable, exists_and_left]

theorem NotInteger.not_unwritable {key : String} {v : Value} (h : NotInteger key v) :
    ¬ Unwritable key v := by
  obtain ⟨f, text, -, -, htext, -⟩ := h
  intro hlong
  rw [(unwritable_iff.mp hlong).2] at htext
  cases htext

theorem NotInteger.exists_literal {key : String} {v : Value} (h : NotInteger key v) :
    ∃ literal, v.literal? = some literal := by
  obtain ⟨f, text, -, -, htext, -⟩ := h
  rw [← Option.ne_none_iff_exists', Ne, Value.literal?_eq_none_iff, htext]
  exact Option.some_ne_none text

/-- Digits are refused where there are too many of them, whatever number they write. -/
theorem notInteger_of_isDigit {key s : String} {f : Field} (hkey : Spells key f.name)
    (hwhole : f.isWhole = true) (hdigits : ∀ c ∈ s.toList, c.isDigit = true)
    (hlong : digitLimit < s.toList.length) : NotInteger key (.text s) := by
  refine ⟨f, s, hkey, hwhole, rfl, ?_⟩
  intro n hn
  rw [← Numeral.read_trim_iff, trim_of_isDigit hdigits, Numeral.read_of_isDigit
    (List.length_pos_iff.mp (Nat.zero_lt_of_lt hlong)) hdigits, if_pos hlong] at hn
  cases hn

/-- What one option can do: nothing, fail, or set the field that it names. -/
theorem apply_cases (c : Config) (key : String) (v : Value) :
    (∀ name, ¬ Spells key name) ∧ c.apply key v = .ok c ∨
      (∃ e, Fault key v e ∧ c.apply key v = .error e) ∨
      ∃ f w c', Spells key f.name ∧ f.Reads v w ∧ c.apply key v = .ok c' ∧
        ∀ g, c'.value g = if g = f then w else c.value g := by
  unfold apply
  cases hkey : optionName? key with
  | none => exact Or.inl ⟨optionName?_eq_none_iff.mp hkey, rfl⟩
  | some name =>
    refine Or.inr ?_
    have hspells := optionName?_eq_some_iff.mp hkey
    dsimp only
    cases hname : Field.ofName? name with
    | none =>
      refine Or.inl ⟨_, Or.inl ⟨?_, rfl⟩, rfl⟩
      exact ⟨name, hspells, Field.ofName?_eq_none_iff.mp hname⟩
    | some f =>
      rw [← Field.ofName?_eq_some_iff.mp hname] at hspells
      dsimp only
      cases htext : v.display? with
      | none =>
        -- neither kind of field reads a value without text, and no failure can quote it
        refine Or.inl ⟨.unwritable, Or.inr (Or.inr ⟨unwritable_iff.mpr ⟨⟨f, hspells⟩, htext⟩, rfl⟩), ?_⟩
        rw [refused, Value.literal?_eq_none_iff.mpr htext]
        cases f.isWhole <;> rfl
      | some text =>
        rw [Option.map_some, Option.map_some]
        by_cases hwhole : f.isWhole = true
        · rw [if_pos hwhole]
          have hfault (h : ∀ n, ¬ Numeral.Writes (trim text).toList n) :
              Fault key v (refused key v) := by
            have hnot : NotInteger key v := ⟨f, text, hspells, hwhole, htext, h⟩
            obtain ⟨literal, hliteral⟩ := hnot.exists_literal
            refine Or.inr (Or.inl ⟨hnot, literal, hliteral, ?_⟩)
            rw [refused, hliteral]
          cases hread : Numeral.read (trim text).toList with
          | value n =>
            refine Or.inr ⟨f, .whole n, c.setWhole n f, hspells, ⟨text, htext, ?_⟩, rfl,
              value_setWhole c n hwhole⟩
            rw [if_pos hwhole]
            exact ⟨n, Numeral.read_trim_iff.mp hread, rfl⟩
          | _ =>
            refine Or.inl ⟨refused key v, hfault ?_, rfl⟩
            intro n hn
            rw [Numeral.read_trim_iff.mpr hn] at hread
            cases hread
        · rw [if_neg hwhole]
          refine Or.inr ⟨f, .text (trim text), _, hspells, ⟨text, htext, ?_⟩, rfl, ?_⟩
          · rw [if_neg hwhole]
          · exact value_setText c _ (Bool.eq_false_iff.mpr hwhole)

theorem Fault.not_reads {key : String} {v w : Value} {e : OptionError} {f : Field}
    (h : Fault key v e) (hkey : Spells key f.name) : ¬ f.Reads v w := by
  intro ⟨text, htext, hreads⟩
  rcases h with ⟨hu, -⟩ | ⟨⟨g, text', hspells, hwhole, htext', hwrites⟩, -⟩ | ⟨hlong, -⟩
  · exact hu.not_spells f hkey
  · obtain rfl := hkey.field_unique hspells
    obtain rfl := Option.some.inj (htext.symm.trans htext')
    rw [if_pos hwhole] at hreads
    obtain ⟨n, hn, -⟩ := hreads
    exact hwrites n hn
  · rw [(unwritable_iff.mp hlong).2] at htext
    cases htext

theorem Fault.exists_spells {key : String} {v : Value} {e : OptionError} (h : Fault key v e) :
    ∃ name, Spells key name := by
  rcases h with ⟨⟨name, hspells, -⟩, -⟩ | ⟨⟨f, text, hspells, -⟩, -⟩ | ⟨⟨f, n, hspells, -⟩, -⟩
  · exact ⟨name, hspells⟩
  · exact ⟨f.name, hspells⟩
  · exact ⟨f.name, hspells⟩

/-- The faults exclude each other: a key with a field is not unknown, and a text is missing or is not. -/
theorem Fault.unique {key : String} {v : Value} {e e' : OptionError} (h : Fault key v e)
    (h' : Fault key v e') : e = e' := by
  have hunknown (hu : Unknown key) : ¬ NotInteger key v ∧ ¬ Unwritable key v := by
    refine ⟨?_, ?_⟩
    · intro ⟨f, text, hspells, _⟩
      exact hu.not_spells f hspells
    · intro ⟨f, n, hspells, _⟩
      exact hu.not_spells f hspells
  rcases h with ⟨hu, rfl⟩ | ⟨hn, literal, hliteral, rfl⟩ | ⟨hlong, rfl⟩
  · rcases h' with ⟨-, rfl⟩ | ⟨hn, -⟩ | ⟨hlong, -⟩
    · rfl
    · exact absurd hn (hunknown hu).1
    · exact absurd hlong (hunknown hu).2
  · rcases h' with ⟨hu, -⟩ | ⟨-, literal', hliteral', rfl⟩ | ⟨hlong, -⟩
    · exact absurd hn (hunknown hu).1
    · rw [Option.some.inj (hliteral.symm.trans hliteral')]
    · exact absurd hlong hn.not_unwritable
  · rcases h' with ⟨hu, -⟩ | ⟨hn, -⟩ | ⟨-, rfl⟩
    · exact absurd hlong (hunknown hu).2
    · exact absurd hlong hn.not_unwritable
    · rfl

theorem faulty_iff {key : String} {v : Value} : Faulty key v ↔ ∃ e, Fault key v e := by
  constructor
  · rintro (hu | hn | hlong)
    · exact ⟨_, Or.inl ⟨hu, rfl⟩⟩
    · obtain ⟨literal, hliteral⟩ := hn.exists_literal
      exact ⟨_, Or.inr (Or.inl ⟨hn, literal, hliteral, rfl⟩)⟩
    · exact ⟨_, Or.inr (Or.inr ⟨hlong, rfl⟩)⟩
  · intro ⟨e, h⟩
    exact h.imp (fun hu => hu.1) (Or.imp (fun hn => hn.1) fun hlong => hlong.1)

/-- A failure tells the option at fault, and by its code what is wrong with it. A number with too many
digits is answered with no failure of the generator's own. -/
theorem Fault.tells {key : String} {v : Value} {e : OptionError} (h : Fault key v e) :
    (∃ f : Failure, e = .failed f ∧ f.category = .config ∧ f.option? = some key ∧
      (Unknown key ∧ f.code.text = "MIRROR-0002" ∨
        NotInteger key v ∧ f.code.text = "MIRROR-0001")) ∨
    Unwritable key v ∧ e = .unwritable := by
  have hoption : ErrorCode.invalidConfigOption.text = "MIRROR-0002" := by decide
  have hvalue : ErrorCode.invalidConfigValue.text = "MIRROR-0001" := by decide
  rcases h with ⟨hu, rfl⟩ | ⟨hn, literal, -, rfl⟩ | hlong
  · exact Or.inl ⟨_, rfl, rfl, rfl, Or.inl ⟨hu, hoption⟩⟩
  · exact Or.inl ⟨_, rfl, rfl, rfl, Or.inr ⟨hn, hvalue⟩⟩
  · exact Or.inr hlong

theorem apply_eq_error_iff {c : Config} {key : String} {v : Value} {e : OptionError} :
    c.apply key v = .error e ↔ Fault key v e := by
  rcases c.apply_cases key v with ⟨hnone, h⟩ | ⟨e', hfault, h⟩ | ⟨f, w, c', hkey, hreads, h, -⟩
  · rw [h]
    refine iff_of_false (fun h => by cases h) ?_
    intro hfault
    obtain ⟨name, hspells⟩ := hfault.exists_spells
    exact hnone name hspells
  · rw [h, Except.error.injEq]
    constructor
    · intro he
      exact he ▸ hfault
    · exact hfault.unique
  · rw [h]
    exact iff_of_false (fun h => by cases h) fun hfault => hfault.not_reads hkey hreads

/-- What is set by an option without fault. -/
theorem value_of_apply {c c' : Config} {key : String} {v : Value} (h : c.apply key v = .ok c')
    (f : Field) :
    Spells key f.name ∧ f.Reads v (c'.value f) ∨ ¬ Spells key f.name ∧ c'.value f = c.value f := by
  rcases c.apply_cases key v with ⟨hnone, hok⟩ | ⟨e, -, hok⟩ | ⟨g, w, d, hkey, hreads, hok, hd⟩
  · rw [hok] at h
    cases h
    exact Or.inr ⟨hnone f.name, rfl⟩
  · rw [hok] at h
    cases h
  · rw [hok] at h
    cases h
    rw [hd f]
    by_cases hfg : f = g
    · rw [if_pos hfg, hfg]
      exact Or.inl ⟨hkey, hreads⟩
    · rw [if_neg hfg]
      exact Or.inr ⟨fun h => hfg (h.field_unique hkey), rfl⟩

theorem exists_apply_iff {c : Config} {key : String} {v : Value} :
    (∃ c', c.apply key v = .ok c') ↔ ¬ Faulty key v := by
  simp only [faulty_iff, ← apply_eq_error_iff (c := c)]
  cases c.apply key v with
  | error e => simp
  | ok c' => simp

end Config

end TierHost
