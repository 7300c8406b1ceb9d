import TierHost.Lint.EventOrder
import TierHost.Proofs.Code.Replace

/-!
What a fix does to a syntax tree: the two accessors of one event change places, and every other node
stays as it is but for its identity. What is reported loses the one place, and nothing else.
-/

namespace TierHost.EventOrder

open Node
open scoped List

/-- The place at which a node is reported, if it is an event in the wrong order. -/
def reported? (n : Node) : Option Location :=
  if n.kind = .eventDeclaration then (misordered? n).map fun m => m.2.1.location else none

/-- The places reported in a tree, in pre-order. -/
def reported (n : Node) : List Location := n.walk.flatMap fun m => (reported? m).toList

theorem reported_eq (n : Node) :
    reported n = (reported? n).toList ++ n.children.flatMap reported := by
  rw [reported, walk_eq, List.flatMap_cons, List.flatMap_assoc]
  rfl

/-- The accessor list of the node, its first one, is in the wrong order. -/
structure Misordered (n list remove add : Node) (before after : List Node) : Prop where
  children : n.children = before ++ list :: after
  first : ∀ m ∈ before, m.kind ≠ .accessorList
  kind : list.kind = .accessorList
  written : list.missing = false
  accessors : list.children = [remove, add]
  remove : remove.kind = .removeAccessor
  add : add.kind = .addAccessor

theorem swapped?_eq_some_iff {list remove add : Node} :
    swapped? list = some (remove, add) ↔
      list.children = [remove, add] ∧ remove.kind = .removeAccessor ∧ add.kind = .addAccessor := by
  rw [swapped?]
  split
  next first second hchildren =>
    by_cases hkinds : (first.kind = .removeAccessor && second.kind = .addAccessor) = true
    · rw [if_pos hkinds, hchildren]
      simp only [Bool.and_eq_true, decide_eq_true_eq] at hkinds
      constructor
      · intro h
        cases h
        exact ⟨rfl, hkinds⟩
      · rintro ⟨h, -, -⟩
        cases h
        rfl
    · rw [if_neg hkinds, hchildren]
      simp only [Bool.and_eq_true, decide_eq_true_eq] at hkinds
      constructor
      · intro h
        cases h
      · rintro ⟨h, hremove, hadd⟩
        cases h
        exact absurd ⟨hremove, hadd⟩ hkinds
  next hother =>
    constructor
    · intro h
      cases h
    · rintro ⟨h, -, -⟩
      exact absurd h (hother remove add)

theorem misordered?_eq_some_iff {n list remove add : Node} :
    misordered? n = some (list, remove, add) ↔
      ∃ before after, Misordered n list remove add before after := by
  constructor
  · intro h
    rw [misordered?, Option.bind_eq_bind, Option.bind_eq_some_iff] at h
    obtain ⟨found, hfound, h⟩ := h
    obtain ⟨hkind, before, after, hchildren, hfirst⟩ := childOfKind?_eq_some_iff.mp hfound
    cases hmissing : found.missing with
    | true => simp [hmissing] at h
    | false =>
      simp only [hmissing] at h
      obtain ⟨⟨first, second⟩, hswapped, hpair⟩ := Option.bind_eq_some_iff.mp h
      cases hpair
      obtain ⟨haccessors, hremove, hadd⟩ := swapped?_eq_some_iff.mp hswapped
      exact ⟨before, after, hchildren, hfirst, hkind, hmissing, haccessors, hremove, hadd⟩
  · rintro ⟨before, after, h⟩
    have hlist := childOfKind?_eq_some_iff.mpr ⟨h.kind, before, after, h.children, h.first⟩
    have hswapped := swapped?_eq_some_iff.mpr ⟨h.accessors, h.remove, h.add⟩
    rw [misordered?, hlist]
    simp [h.written, hswapped]

theorem reported?_eq_some_iff {n : Node} {place : Location} :
    reported? n = some place ↔ n.kind = .eventDeclaration ∧ ∃ list remove add before after,
      Misordered n list remove add before after ∧ remove.location = place := by
  rw [reported?]
  by_cases hkind : n.kind = .eventDeclaration
  · rw [if_pos hkind, Option.map_eq_some_iff]
    constructor
    · rintro ⟨⟨list, remove, add⟩, hm, hplace⟩
      obtain ⟨before, after, hm⟩ := misordered?_eq_some_iff.mp hm
      exact ⟨hkind, list, remove, add, before, after, hm, hplace⟩
    · rintro ⟨-, list, remove, add, before, after, hm, hplace⟩
      exact ⟨(list, remove, add), misordered?_eq_some_iff.mpr ⟨before, after, hm⟩, hplace⟩
  · rw [if_neg hkind]
    constructor
    · intro h
      cases h
    · rintro ⟨hevent, -⟩
      exact absurd hevent hkind

theorem Misordered.reported?_eq_some {n list remove add : Node} {before after : List Node}
    (h : Misordered n list remove add before after) (hevent : n.kind = .eventDeclaration) :
    reported? n = some remove.location :=
  reported?_eq_some_iff.mpr ⟨hevent, list, remove, add, before, after, h, rfl⟩

/-- With its accessors the other way round the node is not reported. -/
theorem Misordered.reported?_swapped {n list remove add : Node} {before after : List Node}
    (h : Misordered n list remove add before after) (i j : Nat) :
    reported? (n.withChildren i (before ++ list.withChildren j [add, remove] :: after)) = none := by
  have hfirst : (n.withChildren i
      (before ++ list.withChildren j [add, remove] :: after)).childOfKind? .accessorList =
        some (list.withChildren j [add, remove]) :=
    childOfKind?_eq_some_iff.mpr ⟨h.kind, before, after, rfl, h.first⟩
  have hswapped : swapped? (list.withChildren j [add, remove]) = none := by
    simp [swapped?, children_withChildren, h.add]
  rw [reported?, misordered?, hfirst]
  simp [hswapped]

/-- What a node shows of itself to the event above it. -/
def glance (n : Node) : Kind × Bool × List (Kind × Location) :=
  (n.kind, n.missing, n.children.map fun child => (child.kind, child.location))

/-- Whether an event is reported, and where, is seen from its children and theirs. -/
theorem reported?_of_glance {n n' : Node} (hkind : n.kind = n'.kind)
    (hglance : n.children.map glance = n'.children.map glance) {place : Location}
    (h : reported? n = some place) : reported? n' = some place := by
  obtain ⟨hevent, list, remove, add, before, after, hm, hplace⟩ := reported?_eq_some_iff.mp h
  -- the other node has its first accessor list at the same index, and the accessors are alike in kind
  rw [hm.children, List.map_append, List.map_cons] at hglance
  obtain ⟨before', rest, hchildren, hbefore, hrest⟩ := List.map_eq_append_iff.mp hglance.symm
  obtain ⟨list', after', rfl, hlist, -⟩ := List.map_eq_cons_iff.mp hrest
  have hkind' : list'.kind = list.kind := congrArg Prod.fst hlist
  have hmissing' : list'.missing = list.missing := congrArg (fun g => g.2.1) hlist
  have haccessors : list'.children.map (fun child => (child.kind, child.location)) =
      list.children.map fun child => (child.kind, child.location) :=
    congrArg (fun g => g.2.2) hlist
  rw [hm.accessors] at haccessors
  obtain ⟨remove', tail, hremove', hpair, htail⟩ := List.map_eq_cons_iff.mp haccessors
  obtain ⟨add', nil', rfl, hadd', hnil⟩ := List.map_eq_cons_iff.mp htail
  obtain rfl := List.map_eq_nil_iff.mp hnil
  rw [Prod.mk.injEq] at hpair hadd'
  have hfirst' : ∀ m ∈ before', m.kind ≠ .accessorList := by
    intro m hm'
    have hmem : glance m ∈ before.map glance := hbefore ▸ List.mem_map_of_mem hm'
    obtain ⟨m', hm', he⟩ := List.mem_map.mp hmem
    have hsame : m'.kind = m.kind := congrArg Prod.fst he
    exact hsame ▸ hm.first m' hm'
  refine reported?_eq_some_iff.mpr ⟨hkind ▸ hevent, list', remove', add', before', after', ?_, ?_⟩
  · exact ⟨hchildren, hfirst', hkind'.trans hm.kind, hmissing'.trans hm.written, hremove',
      hpair.1.trans hm.remove, hadd'.1.trans hm.add⟩
  · exact hpair.2.trans hplace

theorem reported?_congr {n n' : Node} (hkind : n.kind = n'.kind)
    (hglance : n.children.map glance = n'.children.map glance) : reported? n = reported? n' :=
  Option.ext fun _ => ⟨reported?_of_glance hkind hglance,
    reported?_of_glance hkind.symm hglance.symm⟩

/-- Two trees that differ in one accessor list, that of the event reported at the place, whose accessors
are the other way round in the second, and in identities. -/
inductive Swaps (place : Location) : Node → Node → Prop
  | here {n list remove add : Node} {before after : List Node}
      (hevent : n.kind = .eventDeclaration) (h : Misordered n list remove add before after)
      (hplace : remove.location = place) (i j : Nat) :
      Swaps place n (n.withChildren i (before ++ list.withChildren j [add, remove] :: after))
  | inside {n child child' : Node} {before after : List Node} (h : Swaps place child child')
      (hchildren : n.children = before ++ child :: after) (i : Nat) :
      Swaps place n (n.withChildren i (before ++ child' :: after))

/-- What a node has of its own. -/
def header (n : Node) : Kind × Location × String × Bool := (n.kind, n.location, n.name, n.missing)

/-- What the nodes of a tree have of their own, in pre-order. -/
def headers (n : Node) : List (Kind × Location × String × Bool) := n.walk.map header

theorem headers_eq (n : Node) : headers n = header n :: n.children.flatMap headers := by
  rw [headers, walk_eq, List.map_cons, List.map_flatMap]
  rfl

theorem perm_flatMap_middle {α β : Type} {f : α → List β} {a a' : α} (bs : List β)
    (h : (f a).Perm (bs ++ f a')) (before after : List α) :
    ((before ++ a :: after).flatMap f).Perm (bs ++ (before ++ a' :: after).flatMap f) := by
  rw [List.flatMap_append, List.flatMap_append, List.flatMap_cons, List.flatMap_cons]
  calc before.flatMap f ++ (f a ++ after.flatMap f)
    _ ~ before.flatMap f ++ (bs ++ f a' ++ after.flatMap f) :=
      List.Perm.append_left _ (List.Perm.append_right _ h)
    _ = before.flatMap f ++ (bs ++ (f a' ++ after.flatMap f)) := by rw [List.append_assoc]
    _ ~ bs ++ (before.flatMap f ++ (f a' ++ after.flatMap f)) := List.perm_append_comm_assoc _ _ _

namespace Swaps

variable {place : Location} {n n' : Node}

theorem header_eq (h : Swaps place n n') : header n' = header n := by
  cases h <;> rfl

/-- Also the children of a node keep what they have of their own. -/
theorem map_header_children (h : Swaps place n n') :
    n'.children.map header = n.children.map header := by
  cases h with
  | here hevent hm hplace i j =>
    rw [children_withChildren, hm.children, List.map_append, List.map_append]
    rfl
  | inside h hchildren i =>
    rw [children_withChildren, hchildren, List.map_append, List.map_append, List.map_cons,
      List.map_cons, h.header_eq]

theorem glance_eq (h : Swaps place n n') : glance n' = glance n := by
  have hheader : header n' = header n := h.header_eq
  have hkind : n'.kind = n.kind := congrArg Prod.fst hheader
  have hmissing : n'.missing = n.missing := congrArg (fun g => g.2.2.2) hheader
  have hchildren := congrArg (List.map fun g => (g.1, g.2.1)) h.map_header_children
  rw [List.map_map, List.map_map] at hchildren
  rw [glance, glance, hkind, hmissing]
  exact congrArg (fun children => (n.kind, n.missing, children)) hchildren

/-- The nodes of both trees have the same of their own, though not in the same order. -/
theorem headers_perm (h : Swaps place n n') : headers n ~ headers n' := by
  induction h with
  | @here n list remove add before after hevent hm hplace i j =>
    have hlist : headers list ~ [] ++ headers (list.withChildren j [add, remove]) := by
      rw [List.nil_append, headers_eq, headers_eq, hm.accessors, children_withChildren]
      exact List.Perm.cons _ ((List.Perm.swap add remove []).flatMap_right headers)
    rw [headers_eq, headers_eq, hm.children, children_withChildren]
    exact List.Perm.cons _ (perm_flatMap_middle [] hlist before after)
  | @inside n child child' before after h hchildren i ih =>
    rw [headers_eq, headers_eq, hchildren, children_withChildren]
    exact List.Perm.cons _ (perm_flatMap_middle [] ih before after)

/-- A node does not report anything else when a child of it changes in this way. -/
theorem reported?_withChildren {child child' : Node} {before after : List Node}
    (h : Swaps place child child') (hchildren : n.children = before ++ child :: after) (i : Nat) :
    reported? (n.withChildren i (before ++ child' :: after)) = reported? n := by
  refine reported?_congr rfl ?_
  rw [hchildren, children_withChildren, List.map_append, List.map_append, List.map_cons,
    List.map_cons, h.glance_eq]

/-- The place of the event is reported once less, and nothing else changes. -/
theorem reported_perm (h : Swaps place n n') : reported n ~ place :: reported n' := by
  induction h with
  | @here n list remove add before after hevent hm hplace i j =>
    have hlist : reported list ~ [] ++ reported (list.withChildren j [add, remove]) := by
      -- the list is no event itself: what is reported in it is what is reported in the two accessors
      have hkind : ¬ list.kind = .eventDeclaration := by
        rw [hm.kind]
        decide
      have hnone : reported? list = none := if_neg hkind
      have hnone' : reported? (list.withChildren j [add, remove]) = none := if_neg hkind
      rw [List.nil_append, reported_eq, reported_eq, hnone, hnone', hm.accessors,
        children_withChildren]
      exact (List.Perm.swap add remove []).flatMap_right reported
    rw [reported_eq, reported_eq, hm.reported?_eq_some hevent, hm.reported?_swapped i j, hplace,
      hm.children, children_withChildren]
    exact List.Perm.cons _ (perm_flatMap_middle [] hlist before after)
  | @inside n child child' before after h hchildren i ih =>
    rw [reported_eq, reported_eq, h.reported?_withChildren hchildren i, hchildren,
      children_withChildren]
    have hmiddle := perm_flatMap_middle [place] ih before after
    exact (List.Perm.append_left _ hmiddle).trans (List.perm_append_comm_assoc _ _ _)

end Swaps

end TierHost.EventOrder
