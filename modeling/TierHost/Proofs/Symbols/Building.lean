import TierHost.Proofs.Symbols.Represented

/-!
Building a tree from names. There is no tree if a name has no simple name, there is no end to it if a
namespace starts with a point, and for all other names the tree represents them. Reading path tables
comes to the same in every case.
-/

namespace TierHost

open Mention

/-- The first of the names without a simple name. -/
def FirstTypeless (names : List String) (bad : String) : Prop :=
  ∃ before after, names = before ++ bad :: after ∧ Typeless bad ∧
    ∀ name ∈ before, ¬ Typeless name

theorem firstTypeless_iff {names : List String} {bad : String} :
    FirstTypeless names bad ↔
      names.find? (fun name => (splitQualified name).2.isEmpty) = some bad := by
  rw [List.find?_eq_some_iff_append]
  simp only [isEmpty_splitQualified_iff, Bool.not_eq_true', ← Bool.not_eq_true]
  constructor
  · intro h
    obtain ⟨before, after, hnames, hbad, hbefore⟩ := h
    exact ⟨hbad, before, after, hnames, hbefore⟩
  · intro h
    obtain ⟨hbad, before, after, hnames, hbefore⟩ := h
    exact ⟨before, after, hnames, hbad, hbefore⟩

theorem typed_or_firstTypeless (names : List String) :
    (∀ name ∈ names, ¬ Typeless name) ∨ ∃ bad, FirstTypeless names bad := by
  cases hfind : names.find? fun name => (splitQualified name).2.isEmpty with
  | none =>
    apply Or.inl
    intro name hname htypeless
    exact List.find?_eq_none.mp hfind name hname (isEmpty_splitQualified_iff.mpr htypeless)
  | some bad => exact Or.inr ⟨bad, firstTypeless_iff.mpr hfind⟩

theorem buildTree_typeless {names : List String} {bad : String} (h : FirstTypeless names bad) :
    buildTree names = .error (.notTypeName bad) := by
  rw [buildTree, firstTypeless_iff.mp h]

theorem buildTree_typed {names : List String} (h : ∀ name ∈ names, ¬ Typeless name) :
    buildTree names =
      if (names.map ofName).any (fun m => m.1.head? = some "") then .error .endless
      else .ok (root (names.map ofName)) := by
  have hfind : names.find? (fun name => (splitQualified name).2.isEmpty) = none := by
    apply List.find?_eq_none.mpr
    exact fun name hname hempty => h name hname (isEmpty_splitQualified_iff.mp hempty)
  rw [buildTree, hfind]
  rfl

/-- A namespace that starts with a point has no end. -/
theorem buildTree_rootless {names : List String} (h : ∀ name ∈ names, ¬ Typeless name)
    (hr : ∃ name ∈ names, Rootless name) : buildTree names = .error .endless := by
  obtain ⟨name, hname, hname'⟩ := hr
  rw [buildTree_typed h, if_pos]
  apply List.any_eq_true.mpr
  exact ⟨ofName name, List.mem_map_of_mem hname, decide_eq_true (head?_space_eq_empty_iff.mpr hname')⟩

theorem buildTree_rooted {names : List String} (h : ∀ name ∈ names, ¬ Typeless name)
    (hr : ∀ name ∈ names, ¬ Rootless name) : buildTree names = .ok (root (names.map ofName)) := by
  rw [buildTree_typed h, if_neg]
  intro hany
  obtain ⟨m, hm, hhead⟩ := List.any_eq_true.mp hany
  obtain ⟨name, hname, rfl⟩ := List.mem_map.mp hm
  exact hr name hname (head?_space_eq_empty_iff.mp (of_decide_eq_true hhead))

theorem buildTree_eq_typeless_iff {names : List String} {bad : String} :
    buildTree names = .error (.notTypeName bad) ↔ FirstTypeless names bad := by
  constructor
  · intro h
    rcases typed_or_firstTypeless names with htyped | ⟨bad', hbad'⟩
    · rw [buildTree_typed htyped] at h
      split at h
      · cases h
      · cases h
    · rw [buildTree_typeless hbad'] at h
      cases h
      exact hbad'
  · exact buildTree_typeless

theorem buildTree_eq_endless_iff {names : List String} (h : ∀ name ∈ names, ¬ Typeless name) :
    buildTree names = .error .endless ↔ ∃ name ∈ names, Rootless name := by
  constructor
  · intro he
    by_contra hr
    rw [buildTree_rooted h fun name hname hname' => hr ⟨name, hname, hname'⟩] at he
    cases he
  · exact buildTree_rootless h

namespace PathTable

theorem addName_typed {name : String} (h : ¬ Typeless name) (t : PathTable) :
    t.addName name = .ok (t.add "" (ofName name).1 (ofName name).2) :=
  if_neg fun hempty => h (isEmpty_splitQualified_iff.mp hempty)

theorem addName_typeless {name : String} (h : Typeless name) (t : PathTable) :
    t.addName name = .error (.notTypeName name) := if_pos (isEmpty_splitQualified_iff.mpr h)

theorem foldlM_addName {names : List String} (h : ∀ name ∈ names, ¬ Typeless name)
    (t : PathTable) :
    names.foldlM addName t =
      .ok ((names.map ofName).foldl (fun t m => t.add "" m.1 m.2) t) := by
  induction names generalizing t with
  | nil => rfl
  | cons name names ih =>
    obtain ⟨hname, hnames⟩ := List.forall_mem_cons.mp h
    rw [List.foldlM_cons, addName_typed hname]
    exact ih hnames _

theorem ofNames_typed {names : List String} (h : ∀ name ∈ names, ¬ Typeless name) :
    ofNames names = .ok (ofMentions (names.map ofName)) := foldlM_addName h start

theorem ofNames_typeless {names : List String} {bad : String} (h : FirstTypeless names bad) :
    ofNames names = .error (.notTypeName bad) := by
  obtain ⟨before, after, rfl, hbad, hbefore⟩ := h
  rw [ofNames, List.foldlM_append, foldlM_addName hbefore]
  change List.foldlM addName _ (bad :: after) = _
  rw [List.foldlM_cons, addName_typeless hbad]
  rfl

theorem ofNames_eq_typeless_iff {names : List String} {bad : String} :
    ofNames names = .error (.notTypeName bad) ↔ FirstTypeless names bad := by
  constructor
  · intro h
    rcases typed_or_firstTypeless names with htyped | ⟨bad', hbad'⟩
    · rw [ofNames_typed htyped] at h
      cases h
    · rw [ofNames_typeless hbad'] at h
      cases h
      exact hbad'
  · exact ofNames_typeless

theorem freeze_rootless {names : List String} (hr : ∃ name ∈ names, Rootless name) (depth : Nat) :
    (ofMentions (names.map ofName)).freeze depth "" "" "" = none := by
  obtain ⟨name, hname, hname'⟩ := hr
  apply freeze_eq_none
  exact empty_mem_ofMentions (List.mem_map_of_mem hname) (head?_space_eq_empty_iff.mpr hname')

theorem freeze_rooted {names : List String} (hr : ∀ name ∈ names, ¬ Rootless name) :
    ∃ least, ∀ depth, least ≤ depth →
      (ofMentions (names.map ofName)).freeze depth "" "" "" = some (root (names.map ofName)) := by
  have hlegible : ∀ m ∈ names.map ofName, Legible m.1 :=
    List.forall_mem_map.mpr fun name hname => legible_space (hr name hname)
  obtain ⟨longest, hlongest⟩ := exists_depth (names.map ofName)
  refine ⟨longest + 1, fun depth hdepth => ?_⟩
  obtain ⟨depth, rfl⟩ : ∃ d, depth = d + 1 := Nat.exists_eq_add_one_of_ne_zero (by omega)
  apply (holds_ofMentions hlegible).freeze_eq hlegible Legible.nil
  intro m hm
  exact (hlongest m hm).trans (by omega)

/-- Reading the tables ends at no depth exactly if a namespace starts with a point. -/
theorem freeze_eq_none_iff {names : List String} :
    (∀ depth, (ofMentions (names.map ofName)).freeze depth "" "" "" = none) ↔
      ∃ name ∈ names, Rootless name := by
  constructor
  · intro hnone
    by_contra hr
    obtain ⟨least, hleast⟩ := freeze_rooted fun name hname hname' => hr ⟨name, hname, hname'⟩
    have hsome := hleast least (Nat.le_refl least)
    rw [hnone least] at hsome
    cases hsome
  · exact freeze_rootless

end PathTable

/-- A tree is built from names as follows. The first name without a simple name is an error. Without
one, the tables are complete, and the recursion that reads them ends at no depth exactly if a namespace
starts with a point. Otherwise it gives the tree at every depth from some on, and the tree represents
the names. -/
theorem buildTree_represents (names : List String) :
    (∀ bad, (buildTree names = .error (.notTypeName bad) ↔ FirstTypeless names bad) ∧
      (PathTable.ofNames names = .error (.notTypeName bad) ↔ FirstTypeless names bad)) ∧
    ((∀ name ∈ names, ¬ Typeless name) →
      ∃ t, PathTable.ofNames names = .ok t ∧ t.Complete ∧
        ((∀ depth, t.freeze depth "" "" "" = none) ↔ ∃ name ∈ names, Rootless name) ∧
        (buildTree names = .error .endless ↔ ∃ name ∈ names, Rootless name) ∧
        ((∀ name ∈ names, ¬ Rootless name) →
          ∃ root, buildTree names = .ok root ∧
            (∃ least, ∀ depth, least ≤ depth → t.freeze depth "" "" "" = some root) ∧
            root.Represents names)) := by
  constructor
  · exact fun bad => ⟨buildTree_eq_typeless_iff, PathTable.ofNames_eq_typeless_iff⟩
  · intro ht
    refine ⟨_, PathTable.ofNames_typed ht, PathTable.complete_ofMentions _,
      PathTable.freeze_eq_none_iff, buildTree_eq_endless_iff ht, ?_⟩
    intro hr
    exact ⟨_, buildTree_rooted ht hr, PathTable.freeze_rooted hr, root_represents ht hr⟩

/-- A namespace that is also a type, one with an empty segment inside, and a name that is given twice
make a tree, but neither a namespace that starts with a point nor a name that ends in one does. -/
theorem buildTree_represents_shared :
    (∃ root, buildTree ["A.B.Foo", "global::A..Bar", ".Baz", "A.B.Foo", "A.B"] = .ok root ∧
      root.Represents ["A.B.Foo", "global::A..Bar", ".Baz", "A.B.Foo", "A.B"]) ∧
    buildTree ["Foo", "global::.A.Bar"] = .error .endless ∧
    buildTree ["..Foo", "A.", ""] = .error (.notTypeName "A.") := by
  refine ⟨?_, ?_, ?_⟩
  · obtain ⟨t, -, -, -, -, hrooted⟩ :=
      (buildTree_represents ["A.B.Foo", "global::A..Bar", ".Baz", "A.B.Foo", "A.B"]).2
        (by decide +kernel)
    obtain ⟨root, hroot, -, hrepresents⟩ := hrooted (by decide +kernel)
    exact ⟨root, hroot, hrepresents⟩
  · obtain ⟨t, -, -, -, hendless, -⟩ :=
      (buildTree_represents ["Foo", "global::.A.Bar"]).2 (by decide +kernel)
    exact hendless.mpr (by decide +kernel)
  · apply ((buildTree_represents ["..Foo", "A.", ""]).1 "A.").1.mpr
    exact ⟨["..Foo"], [""], rfl, by decide +kernel, by decide +kernel⟩

end TierHost
