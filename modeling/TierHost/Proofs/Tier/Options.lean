import TierHost.Proofs.Tier.Setting
import Mathlib.Data.List.Nodup

/-!
Host options set the fields of a configuration, the last one for each field. The first option at fault,
if there is one, decides how reading them fails. Numbers are read and written up to a limit of digits only.
-/

namespace TierHost

namespace Config

open Text

/-- The fault of the first option that is at fault. -/
def FirstFault (options : Listing String Value) (e : OptionError) : Prop :=
  ∃ front key v back, options = front ++ (key, v) :: back ∧
    (∀ o ∈ front, ¬ Faulty o.1 o.2) ∧ Fault key v e

/-- The value that options over a base give a field: what the last option for it gives, and without
such an option what the base has. -/
def Settles (base : Config) (options : Listing String Value) (f : Field) (w : Value) : Prop :=
  (∀ o ∈ options, ¬ Spells o.1 f.name) ∧ w = base.value f ∨
    ∃ front key v back, options = front ++ (key, v) :: back ∧ Spells key f.name ∧
      (∀ o ∈ back, ¬ Spells o.1 f.name) ∧ f.Reads v w

theorem firstFault_nil {e : OptionError} : ¬ FirstFault [] e := by
  intro ⟨front, key, v, back, hsplit, _⟩
  exact List.append_ne_nil_of_right_ne_nil front (List.cons_ne_nil _ back) hsplit.symm

theorem firstFault_cons_iff {o : String × Value} {options : Listing String Value}
    {e : OptionError} :
    FirstFault (o :: options) e ↔
      Fault o.1 o.2 e ∨ ¬ Faulty o.1 o.2 ∧ FirstFault options e := by
  constructor
  · rintro ⟨front, key, v, back, hsplit, hfront, hfault⟩
    cases front with
    | nil =>
      cases hsplit
      exact Or.inl hfault
    | cons p front =>
      cases hsplit
      rw [List.forall_mem_cons] at hfront
      exact Or.inr ⟨hfront.1, front, key, v, back, rfl, hfront.2, hfault⟩
  · rintro (hfault | ⟨hhead, front, key, v, back, rfl, hfront, hfault⟩)
    · exact ⟨[], o.1, o.2, options, rfl, by simp, hfault⟩
    · exact ⟨o :: front, key, v, back, rfl, List.forall_mem_cons.mpr ⟨hhead, hfront⟩, hfault⟩

/-- Options fail as the first one at fault does. -/
theorem withOptions_eq_error_iff (base : Config) {options : Listing String Value}
    {e : OptionError} :
    base.withOptions options = .error e ↔ FirstFault options e := by
  -- from the front on: an option at fault ends the reading, and the others only change the base
  unfold withOptions
  induction options generalizing base with
  | nil => exact iff_of_false (fun h => by cases h) firstFault_nil
  | cons o options ih =>
    rw [List.foldlM_cons, except_bind_eq_error, firstFault_cons_iff, apply_eq_error_iff,
      ← exists_apply_iff (c := base)]
    simp only [ih, exists_and_right]

theorem exists_withOptions_iff (base : Config) {options : Listing String Value} :
    (∃ c, base.withOptions options = .ok c) ↔ ∀ o ∈ options, ¬ Faulty o.1 o.2 := by
  unfold withOptions
  induction options generalizing base with
  | nil => exact iff_of_true ⟨base, rfl⟩ (by simp)
  | cons o options ih =>
    rw [List.forall_mem_cons, ← exists_apply_iff (c := base), List.foldlM_cons]
    simp only [except_bind_eq_ok]
    rw [exists_comm]
    simp only [exists_and_left, ih, exists_and_right]

/-- The last option decides about its field, and leaves the others to those before it. -/
theorem settles_concat_iff {base : Config} {options : Listing String Value} {o : String × Value}
    {f : Field} {w : Value} :
    base.Settles (options ++ [o]) f w ↔
      Spells o.1 f.name ∧ f.Reads o.2 w ∨ ¬ Spells o.1 f.name ∧ base.Settles options f w := by
  constructor
  · rintro (⟨hnone, hw⟩ | ⟨front, key, v, back, hsplit, hkey, hback, hreads⟩)
    · rw [List.forall_mem_append, List.forall_mem_singleton] at hnone
      exact Or.inr ⟨hnone.2, Or.inl ⟨hnone.1, hw⟩⟩
    · -- the deciding option is the last one, or stands before it
      cases back using List.reverseRecOn with
      | nil =>
        have ho : o = (key, v) := List.singleton_inj.mp (List.append_inj' hsplit rfl).2
        rw [ho]
        exact Or.inl ⟨hkey, hreads⟩
      | append_singleton back p =>
        rw [← List.cons_append, ← List.append_assoc] at hsplit
        obtain ⟨hfront, hlast⟩ := List.append_inj' hsplit rfl
        rw [List.forall_mem_append, List.forall_mem_singleton, ← List.singleton_inj.mp hlast] at hback
        exact Or.inr ⟨hback.2, Or.inr ⟨front, key, v, back, hfront, hkey, hback.1, hreads⟩⟩
  · rintro (⟨hkey, hreads⟩ | ⟨hkey, ⟨hnone, hw⟩ | ⟨front, key, v, back, rfl, hspells, hback, hreads⟩⟩)
    · exact Or.inr ⟨options, o.1, o.2, [], rfl, hkey, by simp, hreads⟩
    · refine Or.inl ⟨?_, hw⟩
      rw [List.forall_mem_append, List.forall_mem_singleton]
      exact ⟨hnone, hkey⟩
    · refine Or.inr ⟨front, key, v, back ++ [o], by simp, hspells, ?_, hreads⟩
      rw [List.forall_mem_append, List.forall_mem_singleton]
      exact ⟨hback, hkey⟩

theorem Settles.unique {base : Config} {options : Listing String Value} {f : Field} {w w' : Value}
    (h : base.Settles options f w) (h' : base.Settles options f w') : w = w' := by
  induction options using List.reverseRecOn with
  | nil =>
    have hnil {u : Value} (hu : base.Settles [] f u) : u = base.value f := by
      rcases hu with hu | ⟨front, key, v, back, hsplit, -⟩
      · exact hu.2
      · exact absurd hsplit.symm (List.append_ne_nil_of_right_ne_nil front (List.cons_ne_nil _ back))
    rw [hnil h, hnil h']
  | append_singleton options o ih =>
    rw [settles_concat_iff] at h h'
    rcases h with ⟨hkey, hreads⟩ | ⟨hkey, hw⟩
    · exact hreads.unique (h'.resolve_right fun h => h.1 hkey).2
    · exact ih hw (h'.resolve_left fun h => hkey h.1).2

theorem withOptions_concat_eq_ok_iff {base c : Config} {options : Listing String Value}
    {o : String × Value} :
    base.withOptions (options ++ [o]) = .ok c ↔
      ∃ d, base.withOptions options = .ok d ∧ d.apply o.1 o.2 = .ok c := by
  rw [withOptions, List.foldlM_append, except_bind_eq_ok]
  simp only [List.foldlM_cons, List.foldlM_nil, bind_pure]
  rfl

theorem settles_of_withOptions {base c : Config} {options : Listing String Value}
    (h : base.withOptions options = .ok c) (f : Field) : base.Settles options f (c.value f) := by
  -- from the end on, as the last option wins
  induction options using List.reverseRecOn generalizing c with
  | nil =>
    cases h
    exact Or.inl ⟨by simp, rfl⟩
  | append_singleton options o ih =>
    obtain ⟨d, hd, ho⟩ := withOptions_concat_eq_ok_iff.mp h
    rw [settles_concat_iff]
    refine (value_of_apply ho f).imp id ?_
    intro ⟨hkey, hvalue⟩
    rw [hvalue]
    exact ⟨hkey, ih hd⟩

/-- Options without fault give every field what the last option for it says. -/
theorem withOptions_eq_ok_iff {base c : Config} {options : Listing String Value} :
    base.withOptions options = .ok c ↔
      (∀ o ∈ options, ¬ Faulty o.1 o.2) ∧ ∀ f, base.Settles options f (c.value f) := by
  constructor
  · intro h
    exact ⟨(exists_withOptions_iff base).mp ⟨c, h⟩, settles_of_withOptions h⟩
  · intro ⟨hfaults, hsettles⟩
    -- there is an outcome, and no other one gives the fields the same values
    obtain ⟨d, hd⟩ := (exists_withOptions_iff base).mpr hfaults
    have hsame : d = c := by
      apply ext_value
      intro f
      exact (settles_of_withOptions hd f).unique (hsettles f)
    rwa [hsame] at hd

/-- An option with a key that is not the generator's may be left out. -/
theorem withOptions_append_cons {base : Config} {front back : Listing String Value} {key : String}
    (h : ∀ name, ¬ Spells key name) (v : Value) :
    base.withOptions (front ++ (key, v) :: back) = base.withOptions (front ++ back) := by
  have hskip (c : Config) : c.apply key v = .ok c := by
    rw [apply, optionName?_eq_none_iff.mpr h]
  simp only [withOptions, List.foldlM_append, List.foldlM_cons, hskip]
  rfl

theorem settles_swap_iff {base : Config} {front back : Listing String Value}
    {o p : String × Value} {f : Field} {w : Value} (h : ¬ (Spells o.1 f.name ∧ Spells p.1 f.name)) :
    base.Settles (front ++ o :: p :: back) f w ↔ base.Settles (front ++ p :: o :: back) f w := by
  induction back using List.reverseRecOn with
  | nil =>
    rw [List.append_cons front o, List.append_cons front p]
    simp only [settles_concat_iff]
    by_cases ho : Spells o.1 f.name
    · have hp : ¬ Spells p.1 f.name := fun hp => h ⟨ho, hp⟩
      simp [ho, hp]
    · simp [ho]
  | append_singleton back q ih =>
    have hlast (a b : String × Value) :
        front ++ a :: b :: (back ++ [q]) = (front ++ a :: b :: back) ++ [q] := by simp
    rw [hlast o p, hlast p o, settles_concat_iff, settles_concat_iff, ih]

/-- Neighbouring options for different fields may change places. -/
theorem withOptions_swap {base c : Config} {front back : Listing String Value}
    {o p : String × Value} {f g : Field} (ho : Spells o.1 f.name) (hp : Spells p.1 g.name)
    (hfg : f ≠ g) (h : base.withOptions (front ++ o :: p :: back) = .ok c) :
    base.withOptions (front ++ p :: o :: back) = .ok c := by
  rw [withOptions_eq_ok_iff] at h ⊢
  refine ⟨?_, ?_⟩
  · intro q hq
    have hperm : (front ++ p :: o :: back).Perm (front ++ o :: p :: back) :=
      (List.Perm.swap o p back).append_left front
    exact h.1 q (hperm.subset hq)
  · intro k
    have hk : ¬ (Spells p.1 k.name ∧ Spells o.1 k.name) := by
      intro ⟨hpk, hok⟩
      exact hfg ((ho.field_unique hok).trans (hpk.field_unique hp))
    exact (settles_swap_iff hk).mpr (h.2 k)

/-- A configuration whose fields can be written as options: its texts are trimmed, and its numbers are
not too long to be read. -/
structure Writable (c : Config) : Prop where
  trimmed : ∀ f s, c.value f = .text s →
    (∀ ch ∈ s.toList.head?, isBlank ch = false) ∧ ∀ ch ∈ s.toList.getLast?, isBlank ch = false
  readable : ∀ f n, c.value f = .whole n → (Nat.toDigits 10 n.natAbs).length ≤ digitLimit

/-- What is written for a field is read back. -/
theorem Writable.reads {c : Config} (h : c.Writable) (f : Field) :
    ∃ text, (c.value f).display? = some text ∧ f.Reads (.text text) (c.value f) := by
  have htext {s : String} (hs : c.value f = .text s) (hwhole : f.isWhole = false) :
      ∃ text, (c.value f).display? = some text ∧ f.Reads (.text text) (c.value f) := by
    rw [hs]
    refine ⟨s, rfl, s, rfl, ?_⟩
    rw [if_neg (Bool.eq_false_iff.mp hwhole), trim_eq_self_iff.mpr (h.trimmed f s hs)]
  have hnumber {n : Int} (hn : c.value f = .whole n) (hwhole : f.isWhole = true) :
      ∃ text, (c.value f).display? = some text ∧ f.Reads (.text text) (c.value f) := by
    rw [hn]
    refine ⟨toString n, write?_of_length_le (h.readable f n hn), toString n, rfl, ?_⟩
    rw [if_pos hwhole, trim_toString]
    exact ⟨n, Numeral.writes_toString (h.readable f n hn), rfl⟩
  cases f
  case baseline | workers | cacheSize => exact hnumber rfl rfl
  all_goals exact htext rfl rfl

/-- Options that write all fields of a configuration, in any order and under either key, give it back. -/
theorem withOptions_of_written {base c : Config} {text : Field → String}
    (hreads : ∀ f : Field, f.Reads (.text (text f)) (c.value f)) {written : List (Field × String)}
    (hall : (written.map (·.1)).Perm Field.all) (hkeys : ∀ e ∈ written, Spells e.2 e.1.name) :
    base.withOptions (written.map fun e => (e.2, .text (text e.1))) = .ok c := by
  rw [withOptions_eq_ok_iff]
  constructor
  · intro o ho hfaulty
    obtain ⟨⟨f, key⟩, hmem, rfl⟩ := List.mem_map.mp ho
    obtain ⟨e, hfault⟩ := faulty_iff.mp hfaulty
    exact hfault.not_reads (hkeys _ hmem) (hreads f)
  · intro f
    have hf : f ∈ written.map (·.1) := hall.symm.subset (by cases f <;> decide)
    have hnodup : (written.map (·.1)).Nodup := hall.symm.nodup (by decide)
    obtain ⟨⟨g, key⟩, hmem, rfl⟩ := List.mem_map.mp hf
    obtain ⟨front, back, rfl⟩ := List.append_of_mem hmem
    -- the field is written once, so that nothing behind its option is for it
    let option (e : Field × String) : String × Value := (e.2, .text (text e.1))
    have hback : ∀ o ∈ back.map option, ¬ Spells o.1 g.name := by
      intro o ho hspells
      obtain ⟨e, he, rfl⟩ := List.mem_map.mp ho
      have hkey := hkeys e (List.mem_append_right front (List.mem_cons_of_mem _ he))
      have hsame : e.1 = g := hkey.field_unique hspells
      rw [List.map_append, List.map_cons, List.nodup_middle, List.nodup_cons] at hnodup
      exact hnodup.1 (List.mem_append_right _ (List.mem_map.mpr ⟨e, he, hsame⟩))
    have hsplit : (front ++ (g, key) :: back).map option =
        front.map option ++ option (g, key) :: back.map option := by
      rw [List.map_append, List.map_cons]
    exact Or.inr ⟨_, key, _, _, hsplit, hkeys _ hmem, hback, hreads g⟩

end Config

namespace Generator

open Config Text

/-- Configuring reads the options, whatever the session, and logs problems. -/
theorem runIn_configure (base : Config) (options : Listing String Value) (s : Session) :
    ((configure base options).runIn s).1 = (base.withOptions options).mapError .ofOption := by
  rw [configure]
  cases base.withOptions options with
  | error e => rfl
  | ok c =>
    obtain ⟨es, hs⟩ := polls_recordProblems RunError.canceled c s
    rw [Session.pollFor_zero, if_pos rfl] at hs
    change ((recordProblems c >>= fun _ => pure c : Work RunError Config).runIn s).1 = .ok c
    rw [Work.runIn_bind, hs]
    rfl

theorem configure_eq_ok_iff {base c : Config} {options : Listing String Value} {s : Session} :
    ((configure base options).runIn s).1 = .ok c ↔ base.withOptions options = .ok c := by
  rw [runIn_configure]
  cases base.withOptions options <;> simp [Except.mapError]

theorem configure_fails_iff {base : Config} {options : Listing String Value} {s : Session} :
    (∃ e, ((configure base options).runIn s).1 = .error e) ↔
      ¬ ∃ c, base.withOptions options = .ok c := by
  rw [runIn_configure]
  cases base.withOptions options <;> simp [Except.mapError]

theorem configure_eq_error_iff {base : Config} {options : Listing String Value} {s : Session}
    {e : RunError} :
    ((configure base options).runIn s).1 = .error e ↔
      ∃ fault, FirstFault options fault ∧ e = .ofOption fault := by
  simp only [runIn_configure, ← withOptions_eq_error_iff base]
  cases base.withOptions options <;> simp [Except.mapError, eq_comm]

/-- Options are read field by field, and the last one for a field wins. Reading them fails if one of
them is at fault, and then as the first such does: with a failure that names the option, or without one if
a number has too many digits for a text. Keys that are not the generator's do not matter, neighbours for
different fields may change places, and all fields of a configuration that can be written give it back in
any order. -/
theorem configure_last_wins (base : Config) (options : Listing String Value) (s : Session) :
    ((∃ e, ((configure base options).runIn s).1 = .error e) ↔ ∃ o ∈ options, Faulty o.1 o.2) ∧
    (∀ e, ((configure base options).runIn s).1 = .error e ↔
      ∃ fault, FirstFault options fault ∧ e = .ofOption fault) ∧
    (∀ key v fault, Fault key v fault →
      (∃ f : Failure, fault = .failed f ∧ f.category = .config ∧ f.option? = some key ∧
        (Unknown key ∧ f.code.text = "MIRROR-0002" ∨
          NotInteger key v ∧ f.code.text = "MIRROR-0001")) ∨
      Unwritable key v ∧ fault = .unwritable) ∧
    ((∃ c, ((configure base options).runIn s).1 = .ok c) ↔ ∀ o ∈ options, ¬ Faulty o.1 o.2) ∧
    (∀ c, ((configure base options).runIn s).1 = .ok c ↔
      (∀ o ∈ options, ¬ Faulty o.1 o.2) ∧ ∀ f, base.Settles options f (c.value f)) ∧
    (∀ front key v back, (∀ name, ¬ Spells key name) →
      configure base (front ++ (key, v) :: back) = configure base (front ++ back)) ∧
    (∀ front o p back (f g : Field) c, Spells o.1 f.name → Spells p.1 g.name → f ≠ g →
      ((configure base (front ++ o :: p :: back)).runIn s).1 = .ok c →
      ((configure base (front ++ p :: o :: back)).runIn s).1 = .ok c) ∧
    (∀ c : Config, c.Writable → ∃ text : Field → String,
      (∀ f, (c.value f).display? = some (text f)) ∧
      ∀ written : List (Field × String), (written.map (·.1)).Perm Field.all →
        (∀ e ∈ written, Spells e.2 e.1.name) →
        ((configure base (written.map fun e => (e.2, .text (text e.1)))).runIn s).1 = .ok c) := by
  refine ⟨?_, fun e => configure_eq_error_iff, fun key v fault h => h.tells, ?_, ?_, ?_, ?_, ?_⟩
  · rw [configure_fails_iff, exists_withOptions_iff]
    simp only [not_forall, not_not, exists_prop]
  · simp only [configure_eq_ok_iff]
    exact exists_withOptions_iff base
  · intro c
    rw [configure_eq_ok_iff, withOptions_eq_ok_iff]
  · intro front key v back hkey
    rw [configure, configure, withOptions_append_cons hkey]
  · intro front o p back f g c ho hp hfg hok
    rw [configure_eq_ok_iff] at hok ⊢
    exact withOptions_swap ho hp hfg hok
  · intro c hc
    choose text hdisplay hreads using hc.reads
    refine ⟨text, hdisplay, ?_⟩
    intro written hall hkeys
    rw [configure_eq_ok_iff]
    exact withOptions_of_written hreads hall hkeys

/-- The least number with too many digits. -/
def leastOverlong : Int := Int.ofNat (10 ^ digitLimit)

theorem unwritable_leastOverlong {key : String} {f : Field} (hkey : Spells key f.name) :
    Unwritable key (.whole leastOverlong) :=
  ⟨f, leastOverlong, hkey, rfl, Nat.le_refl _⟩

/-- An unknown option before a malformed one, a number with too many digits before an unknown option, a
foreign key, options that change places, and a configuration that is written over another one. -/
theorem configure_last_wins_default :
    ((configure .default [("testmirror_color", .absent), ("testmirror_max_workers", .text "many")]).runIn
      (.start none)).1 = .error (.failed (.unknownOption "testmirror_color")) ∧
    ((configure .default [("testmirror_max_workers", .whole leastOverlong),
      ("testmirror_color", .absent)]).runIn (.start none)).1 = .error .unwritable ∧
    configure .default [("RootNamespace", .text "A"), ("testmirror_product", .text "B")] =
      configure .default [("testmirror_product", .text "B")] ∧
    ((configure .default [("build_property.testmirror_product", .text " B "),
      ("testmirror_max_workers", .whole 2)]).runIn (.start none)).1 =
        .ok { Config.default with product := "B", workers := 2 } ∧
    ∃ text : Field → String, (∀ f, (Config.default.value f).display? = some (text f)) ∧
      ((configure { Config.default with workers := 0 } (Field.all.map fun f =>
        (optionMark ++ f.name, .text (text f)))).runIn (.start none)).1 = .ok .default := by
  refine ⟨?_, ?_, ?_, ?_, ?_⟩
  · obtain ⟨-, herror, -⟩ := configure_last_wins .default
      [("testmirror_color", .absent), ("testmirror_max_workers", .text "many")] (.start none)
    have hunknown : Unknown "testmirror_color" :=
      ⟨"color", Or.inl (by decide), fun f => by cases f <;> decide⟩
    exact (herror _).mpr ⟨_, firstFault_cons_iff.mpr (Or.inl (Or.inl ⟨hunknown, rfl⟩)), rfl⟩
  · obtain ⟨-, herror, -⟩ := configure_last_wins .default
      [("testmirror_max_workers", .whole leastOverlong), ("testmirror_color", .absent)]
      (.start none)
    have hlong : Unwritable "testmirror_max_workers" (.whole leastOverlong) :=
      unwritable_leastOverlong (f := .workers) (Or.inl (by decide))
    have hfault : Fault "testmirror_max_workers" (.whole leastOverlong) .unwritable :=
      Or.inr (Or.inr ⟨hlong, rfl⟩)
    exact (herror _).mpr ⟨_, firstFault_cons_iff.mpr (Or.inl hfault), rfl⟩
  · obtain ⟨-, -, -, -, -, hforeign, -⟩ := configure_last_wins .default [] (.start none)
    exact hforeign [] _ _ _ (optionName?_eq_none_iff.mp (by decide))
  · obtain ⟨-, -, -, -, -, -, hswap, -⟩ := configure_last_wins .default [] (.start none)
    have hproduct : Spells "build_property.testmirror_product" Field.product.name := Or.inr (by decide)
    have hworkers : Spells "testmirror_max_workers" Field.workers.name := Or.inl (by decide)
    apply hswap [] ("testmirror_max_workers", .whole 2) _ [] .workers .product _ hworkers hproduct
    · decide
    · rfl
  · obtain ⟨-, -, -, -, -, -, -, hwritten⟩ :=
      configure_last_wins { Config.default with workers := 0 } [] (.start none)
    have hwritable : Config.default.Writable := by
      constructor
      · intro f s hs
        rw [← trim_eq_self_iff]
        cases f <;> cases hs
        all_goals decide
      · intro f n hn
        cases f <;> cases hn
        all_goals decide
    have hkeys : ∀ e ∈ Field.all.map (fun f => (f, optionMark ++ f.name)), Spells e.2 e.1.name := by
      intro e he
      obtain ⟨f, -, rfl⟩ := List.mem_map.mp he
      exact Or.inl rfl
    have hfields : (Field.all.map fun f => (f, optionMark ++ f.name)).map (·.1) = Field.all := by
      decide
    obtain ⟨text, hdisplay, hread⟩ := hwritten .default hwritable
    refine ⟨text, hdisplay, ?_⟩
    have hread' := hread _ (.of_eq hfields) hkeys
    rw [List.map_map] at hread'
    exact hread'

/-- A one behind as many zeros as there may be digits. -/
def paddedOne : String := String.ofList (List.replicate digitLimit '0' ++ ['1'])

/-- A text that writes a number is refused for its length, and a number with too many digits has no text
that could be read, or quoted in a failure. -/
theorem not_always_read :
    (∀ ch ∈ paddedOne.toList, ch.isDigit = true) ∧ Nat.ofDigitChars 10 paddedOne.toList 0 = 1 ∧
      ((configure .default [("testmirror_max_workers", .text paddedOne)]).runIn (.start none)).1 =
        .error (.failed (.notInteger "testmirror_max_workers" (Text.literal paddedOne))) ∧
      ((configure .default [("testmirror_product", .whole leastOverlong)]).runIn
        (.start none)).1 = .error .unwritable ∧
      ((configure .default [("testmirror_max_workers", .whole leastOverlong)]).runIn
        (.start none)).1 = .error .unwritable := by
  have hlist : paddedOne.toList = List.replicate digitLimit '0' ++ ['1'] := String.toList_ofList
  have hdigits : ∀ ch ∈ paddedOne.toList, ch.isDigit = true := by
    intro ch hch
    rw [hlist] at hch
    rcases List.mem_append.mp hch with hzero | hone
    · rw [(List.mem_replicate.mp hzero).2]
      rfl
    · rw [List.mem_singleton.mp hone]
      rfl
  have hvalue : Nat.ofDigitChars 10 paddedOne.toList 0 = 1 := by
    rw [hlist, Nat.ofDigitChars_append, Nat.ofDigitChars_replicate_zero, Nat.mul_zero]
    rfl
  have hlong : digitLimit < paddedOne.toList.length := by
    rw [hlist, List.length_append, List.length_replicate]
    exact Nat.lt_succ_self digitLimit
  -- the only option is the first one at fault
  have hfirst {key : String} {v : Value} {e : OptionError} (h : Fault key v e) :
      ((configure .default [(key, v)]).runIn (.start none)).1 = .error (.ofOption e) :=
    configure_eq_error_iff.mpr ⟨e, firstFault_cons_iff.mpr (Or.inl h), rfl⟩
  have hunwritable {key : String} {f : Field} (hkey : Spells key f.name) :
      Fault key (.whole leastOverlong) .unwritable :=
    Or.inr (Or.inr ⟨unwritable_leastOverlong hkey, rfl⟩)
  have hworkers : Spells "testmirror_max_workers" Field.workers.name := Or.inl (by decide)
  have hproduct : Spells "testmirror_product" Field.product.name := Or.inl (by decide)
  refine ⟨hdigits, hvalue, ?_, hfirst (hunwritable hproduct), hfirst (hunwritable hworkers)⟩
  exact hfirst (Or.inr (Or.inl ⟨notInteger_of_isDigit hworkers rfl hdigits hlong, _, rfl, rfl⟩))

end Generator

end TierHost
