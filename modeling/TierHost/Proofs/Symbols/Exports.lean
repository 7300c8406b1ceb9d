import TierHost.Proofs.Symbols.Placed
import TierHost.Tier.Candidates

/-!
The types that an assembly exports in named namespaces, at any depth, and the search that finds the
test classes among them.
-/

namespace TierHost

/-- The type is directly in a named namespace that is this member or lies below it. -/
inductive Member.Exports (t : NamedType) : Member → Prop
  | here {name parent : String} {members : List Member} (named : name ≠ "")
      (mem : .type t ∈ members) : Exports t (.space name parent members)
  | inside {name parent : String} {members : List Member} {m : Member} (mem : m ∈ members)
      (exported : m.Exports t) : Exports t (.space name parent members)

/-- The type is directly in a named namespace of the assembly. -/
def Assembly.Exports (a : Assembly) (t : NamedType) : Prop := a.root.toMember.Exports t

/-- The assembly is the first one of that name that the compilation references. -/
def Compilation.FirstNamed (c : Compilation) (name : String) (a : Assembly) : Prop :=
  ∃ before after, c.references = before ++ a :: after ∧ a.name = name ∧
    ∀ b ∈ before, b.name ≠ name

theorem Compilation.reference?_eq_some_iff {c : Compilation} {name : String} {a : Assembly} :
    c.reference? name = some a ↔ c.FirstNamed name a := by
  rw [reference?, List.find?_eq_some_iff_append]
  constructor
  · rintro ⟨hname, before, after, hsplit, hbefore⟩
    refine ⟨before, after, hsplit, by simpa using hname, ?_⟩
    intro b hb
    simpa using hbefore b hb
  · rintro ⟨before, after, hsplit, hname, hbefore⟩
    refine ⟨by simpa using hname, before, after, hsplit, ?_⟩
    intro b hb
    simpa using hbefore b hb

theorem Compilation.FirstNamed.unique {c : Compilation} {name : String} {a b : Assembly}
    (ha : c.FirstNamed name a) (hb : c.FirstNamed name b) : a = b := by
  have he := reference?_eq_some_iff.mpr ha
  rw [reference?_eq_some_iff.mpr hb] at he
  exact (Option.some.inj he).symm

theorem Compilation.FirstNamed.mem {c : Compilation} {name : String} {a : Assembly}
    (h : c.FirstNamed name a) : a ∈ c.references := by
  obtain ⟨before, after, hsplit, -, -⟩ := h
  rw [hsplit]
  exact List.mem_append_right before List.mem_cons_self

theorem extendPath_ne_empty {name : String} (h : name ≠ "") (path : String) :
    extendPath path name ≠ "" := by
  unfold extendPath
  by_cases hp : path.isEmpty = true
  · rwa [if_pos hp]
  · rw [if_neg hp]
    intro he
    have hl := congrArg String.toList he
    simp at hl

/-- An exported type that is placed has the path of a named namespace and no enclosing type. -/
theorem Member.Placed.of_exports {path : String} {m : Member} {t : NamedType} (h : m.Placed path)
    (he : m.Exports t) : t.namespacePath ≠ "" ∧ t.outerPath = "" := by
  induction he generalizing path with
  | here named mem =>
    cases h with
    | space hm =>
      cases hm _ mem with
      | type ht =>
        refine ⟨?_, ht.outerPath_eq⟩
        rw [ht.namespacePath_eq]
        exact extendPath_ne_empty named _
  | inside mem _ ih =>
    cases h with
    | space hm => exact ih (hm _ mem)

theorem NamedType.displayName_eq {t : NamedType} (hs : t.namespacePath ≠ "") (ho : t.outerPath = "")
    (hn : t.name ≠ "") : t.displayName = globalMark ++ (t.namespacePath ++ "." ++ t.name) := by
  have hs' : t.namespacePath.isEmpty = false := by simpa using hs
  have hn' : t.name.isEmpty = false := by simpa using hn
  have hparts : [t.namespacePath, "", t.name].filter (fun part => !part.isEmpty) =
      [t.namespacePath, t.name] := by
    simp [hs', hn']
  rw [displayName, qualifiedName, ho, hparts]
  rfl

namespace Naming

theorem memberStepsList_eq (n : Naming) (global : Bool) (ms : List Member) :
    n.memberStepsList global ms = ms.flatMap (n.memberSteps global) := by
  induction ms with
  | nil => rfl
  | cons m ms ih => rw [memberStepsList, ih, List.flatMap_cons]

theorem take_mem_typeStep {n : Naming} {global : Bool} {t : NamedType} {name : String} :
    .take name ∈ n.typeStep global t ↔
      global = false ∧ n.accepts t.name = true ∧ name = t.displayName := by
  unfold typeStep
  cases global with
  | true => simp
  | false => by_cases ha : n.accepts t.name = true <;> simp [ha]

/-- The search of a member takes the accepted types that it exports, and the member itself if it is
an accepted type of a named namespace. -/
theorem take_mem_memberSteps {n : Naming} {global : Bool} {m : Member} {name : String} :
    .take name ∈ n.memberSteps global m ↔
      (∃ t, m.Exports t ∧ n.accepts t.name = true ∧ name = t.displayName) ∨
        global = false ∧ ∃ t, m = .type t ∧ n.accepts t.name = true ∧ name = t.displayName := by
  -- whether types are taken depends on the namespace around them, so the flag varies
  induction m using Member.induction generalizing global with
  | space space parent members ih =>
    rw [memberSteps, memberStepsList_eq]
    simp only [List.mem_cons, reduceCtorEq, false_or, List.mem_flatMap, false_and, exists_false,
      and_false, or_false]
    constructor
    · rintro ⟨m, hm, hstep⟩
      rcases (ih m hm).mp hstep with ⟨t, ht, ha, hd⟩ | ⟨hnamed, t, rfl, ha, hd⟩
      · exact ⟨t, .inside hm ht, ha, hd⟩
      · exact ⟨t, .here (by simpa using hnamed) hm, ha, hd⟩
    · rintro ⟨t, ht, ha, hd⟩
      cases ht with
      | here named mem =>
        refine ⟨.type t, mem, (ih _ mem).mpr (Or.inr ⟨?_, t, rfl, ha, hd⟩)⟩
        simpa using named
      | inside mem exported => exact ⟨_, mem, (ih _ mem).mpr (Or.inl ⟨t, exported, ha, hd⟩)⟩
  | type t =>
    rw [memberSteps, take_mem_typeStep]
    constructor
    · rintro ⟨hg, ha, hd⟩
      exact Or.inr ⟨hg, t, rfl, ha, hd⟩
    · rintro (⟨t', ht, -⟩ | ⟨hg, t', ht, ha, hd⟩)
      · cases ht
      · cases ht
        exact ⟨hg, ha, hd⟩

/-- The search of an assembly finds the display names of the accepted types that it exports. -/
theorem mem_found {n : Naming} {a : Assembly} {name : String} :
    name ∈ n.found (.assembly a) ↔
      ∃ t, a.Exports t ∧ n.accepts t.name = true ∧ name = t.displayName := by
  have htake : name ∈ n.found (.assembly a) ↔ .take name ∈ n.memberSteps false a.root.toMember := by
    rw [found, List.mem_filterMap]
    constructor
    · rintro ⟨step, hstep, htaken⟩
      cases step with
      | take name' =>
        cases htaken
        exact hstep
      | enter => cases htaken
      | skip name' => cases htaken
    · intro h
      exact ⟨.take name, h, rfl⟩
  rw [htake, take_mem_memberSteps]
  constructor
  · rintro (h | ⟨-, t, ht, -⟩)
    · exact h
    · cases ht
  · exact Or.inl

end Naming

end TierHost
