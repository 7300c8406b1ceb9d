import TierHost.Proofs.Host.Polls
import TierHost.Proofs.Lint.Swap

/-!
The fix of an event in the wrong order. In a tree of distinct nodes it swaps the accessors of one event
at the diagnostic's location, or leaves the document as it is.
-/

namespace TierHost.EventOrder

open Node
open scoped List

variable {place : Location}

/-- A change at a place is one of the whole tree. -/
theorem Swaps.plug {n n' : Node} (h : Swaps place n n') (fs : List Frame) (fresh : Nat) :
    Swaps place (Node.plug fs n) (Node.plug (renumber fresh fs) n') := by
  induction fs generalizing fresh with
  | nil => exact h
  | cons f fs ih =>
    have hfill : (f.fill (Node.plug fs n)).children = f.before ++ Node.plug fs n :: f.after := rfl
    exact (ih (fresh + 1)).inside hfill fresh

/-- Replacing the accessor list of an event by the one the other way round, which gets an identity of
its own, is such a change, and the nodes stay distinct. -/
theorem swaps_replace {root n list remove add swapped : Node} {before after : List Node}
    (hids : root.ids.Nodup) (hn : n ∈ root.walk) (hevent : n.kind = .eventDeclaration)
    (hm : Misordered n list remove add before after)
    (hswapped : swapped = list.withChildren (root.largestId + 1) [add, remove]) :
    Swaps remove.location root (root.replace list.id swapped) ∧
      (root.replace list.id swapped).ids.Nodup := by
  obtain ⟨fs, hroot⟩ := exists_plug hn
  let f : Frame := ⟨n.id, n.kind, n.location, n.name, n.missing, before, after⟩
  have hfill : n = f.fill list := by
    change n = ⟨n.id, n.kind, n.location, n.name, n.missing, before ++ list :: after⟩
    rw [← hm.children]
    cases n
    rfl
  have hplug : root = plug (fs ++ [f]) list := by
    rw [hroot, plug_append]
    exact congrArg (plug fs) hfill
  have hnew : ∀ i ∈ root.ids, i < swapped.id := by
    intro i hi
    have hle : i ≤ root.largestId := le_largestId hi
    have hid : swapped.id = root.largestId + 1 := by rw [hswapped]; rfl
    omega
  have hbelow : swapped.children.flatMap ids ~ list.children.flatMap ids := by
    rw [hswapped, children_withChildren, hm.accessors]
    exact (List.Perm.swap remove add []).flatMap_right ids
  have hlist : list.id ∈ root.ids := by
    rw [hplug, (ids_plug _ _).mem_iff, ids_eq list]
    exact List.mem_append_right _ (List.mem_append_right _ List.mem_cons_self)
  have hne : swapped.id ≠ list.id := by
    have := hnew list.id hlist
    omega
  have hreplace := replace_plug (hplug ▸ hids) hne
  have hnodup := nodup_ids_replace (hplug ▸ hids) (hplug ▸ hnew) hbelow
  rw [← hplug] at hreplace hnodup
  refine ⟨?_, hnodup⟩
  rw [hreplace, renumber_append, plug_append, hswapped, hroot]
  exact (Swaps.here hevent hm rfl _ _).plug fs _

theorem Misordered.remove_mem_walk {root n list remove add : Node} {before after : List Node}
    (hm : Misordered n list remove add before after) (hn : n ∈ root.walk) : remove ∈ root.walk := by
  have hlist : list ∈ root.walk := by
    refine child_mem_walk hn ?_
    rw [hm.children]
    exact List.mem_append_right _ List.mem_cons_self
  refine child_mem_walk hlist ?_
  rw [hm.accessors]
  exact List.mem_cons_self

theorem listOf?_eq_some_iff {r n list remove add : Node} :
    listOf? r n = some (list, remove, add) ↔ n.kind = .eventDeclaration ∧
      misordered? n = some (list, remove, add) ∧ remove.id = r.id := by
  rw [listOf?]
  by_cases hkind : n.kind = .eventDeclaration
  · cases hm : misordered? n with
    | none => simp [hkind]
    | some found =>
      obtain ⟨list', remove', add'⟩ := found
      by_cases hid : remove'.id = r.id
      · simp only [hkind, hid, ne_eq, not_true_eq_false, if_false, Option.bind_eq_bind,
          Option.bind_some, if_true, true_and, Option.some.injEq, Prod.mk.injEq]
        constructor
        · rintro ⟨rfl, rfl, rfl⟩
          exact ⟨⟨rfl, rfl, rfl⟩, hid⟩
        · exact fun h => h.1
      · simp only [hkind, hid, ne_eq, not_true_eq_false, if_false, Option.bind_eq_bind,
          Option.bind_some, true_and, Option.some.injEq, Prod.mk.injEq, reduceCtorEq, false_iff]
        rintro ⟨⟨-, rfl, -⟩, h⟩
        exact hid h
  · simp [hkind]

/-- The document with the fix for a diagnostic, if there is one for it. -/
def fixFor? (doc : Document) (d : Diagnostic) : Option Document :=
  if canFix d then (doc.root.find? d.location (some .removeAccessor)).bind (fixed? doc) else none

/-- The fix does not depend on the session that it is applied in. -/
theorem runIn_applyFix {ε : Type} (doc : Document) (d : Diagnostic) (s : Session) :
    ((applyFix doc d : Work ε (Option Document)).runIn s).1 = .ok (fixFor? doc d) := by
  rw [applyFix, fixFor?]
  by_cases hfix : canFix d = true
  · rw [if_pos hfix, if_pos hfix, fix]
    cases doc.root.find? d.location (some .removeAccessor) with
    | none => rfl
    | some remove => rfl
  · rw [if_neg hfix, if_neg hfix]
    rfl

/-- The fix leaves a document of distinct nodes as it is, or swaps the accessors of one event that is
reported at the diagnostic's location. -/
theorem swaps_of_fixFor? {doc doc' : Document} {d : Diagnostic} (hids : doc.root.ids.Nodup)
    (h : fixFor? doc d = some doc') :
    doc'.file = doc.file ∧ Swaps d.location doc.root doc'.root ∧ doc'.root.ids.Nodup := by
  rw [fixFor?] at h
  split at h
  next =>
    obtain ⟨r, hfind, hfixed⟩ := Option.bind_eq_some_iff.mp h
    obtain ⟨⟨list, remove, add⟩, hlist, hdoc⟩ := Option.bind_eq_some_iff.mp hfixed
    cases hdoc
    obtain ⟨n, hn, hlist⟩ := List.exists_of_findSome?_eq_some hlist
    obtain ⟨hevent, hm, hid⟩ := listOf?_eq_some_iff.mp hlist
    obtain ⟨before, after, hm⟩ := misordered?_eq_some_iff.mp hm
    obtain ⟨hr, hplace, -⟩ := find?_some hfind
    -- the event was chosen by the identity of its remove accessor, which only this node has
    obtain rfl : remove = r := eq_of_id_eq hids (hm.remove_mem_walk hn) hr hid
    obtain ⟨hswaps, hnodup⟩ := swaps_replace hids hn hevent hm rfl
    exact ⟨rfl, hplace ▸ hswaps, hnodup⟩
  next => cases h

/-- The locations of the remove accessors in a tree, in pre-order. -/
def removals (n : Node) : List Location :=
  (n.walk.filter fun m => m.kind = .removeAccessor).map (·.location)

theorem Swaps.removals_perm {n n' : Node} (h : Swaps place n n') : removals n ~ removals n' := by
  have hremovals (n : Node) : removals n =
      ((headers n).filter fun g => g.1 = .removeAccessor).map fun g => g.2.1 := by
    rw [removals, headers, List.filter_map, List.map_map]
    rfl
  rw [hremovals, hremovals]
  exact (h.headers_perm.filter _).map _

/-- The only remove accessor at a location is known by it. -/
theorem eq_of_location_eq {root m m' : Node} (hcount : (removals root).count place ≤ 1)
    (hm : m ∈ root.walk) (hm' : m' ∈ root.walk) (hkind : m.kind = .removeAccessor)
    (hkind' : m'.kind = .removeAccessor) (h : m.location = place) (h' : m'.location = place) :
    m = m' := by
  let found := (root.walk.filter fun m => m.kind = .removeAccessor).filter fun m => m.location == place
  have hfound : found.length = (removals root).count place := by
    rw [removals, List.count, List.countP_map, List.countP_eq_length_filter]
    rfl
  have hmem : ∀ m ∈ root.walk, m.kind = .removeAccessor → m.location = place → m ∈ found := by
    intro m hm hkind h
    exact List.mem_filter.mpr ⟨List.mem_filter.mpr ⟨hm, decide_eq_true hkind⟩, beq_iff_eq.mpr h⟩
  have hpos : 0 < found.length := List.length_pos_of_mem (hmem m hm hkind h)
  obtain ⟨only, honly⟩ := List.length_eq_one_iff.mp (show found.length = 1 by omega)
  rw [honly] at hmem
  rw [List.mem_singleton.mp (hmem m hm hkind h), List.mem_singleton.mp (hmem m' hm' hkind' h')]

/-- A reported event is fixed if no other remove accessor has the location. -/
theorem exists_fixFor? {doc : Document} {d : Diagnostic}
    (hcount : (removals doc.root).count d.location ≤ 1) (hid : d.id = ruleId)
    (h : d.location ∈ reported doc.root) : ∃ doc', fixFor? doc d = some doc' := by
  obtain ⟨n, hn, hplace⟩ := List.mem_flatMap.mp h
  obtain ⟨hevent, list, remove, add, before, after, hm, hplace⟩ :=
    reported?_eq_some_iff.mp (Option.mem_toList.mp hplace)
  have hremove : remove ∈ doc.root.walk := hm.remove_mem_walk hn
  have hlist : listOf? remove n = some (list, remove, add) :=
    listOf?_eq_some_iff.mpr ⟨hevent, misordered?_eq_some_iff.mpr ⟨before, after, hm⟩, rfl⟩
  obtain ⟨r, hfind⟩ : ∃ r, doc.root.find? d.location (some .removeAccessor) = some r := by
    refine Option.isSome_iff_exists.mp (List.find?_isSome.mpr ⟨remove, hremove, ?_⟩)
    simp [hplace, hm.remove]
  obtain ⟨hr, hrplace, hrkind⟩ := find?_some hfind
  obtain rfl : r = remove := eq_of_location_eq hcount hr hremove hrkind hm.remove hrplace hplace
  obtain ⟨found, hfound⟩ : ∃ found, doc.root.walk.findSome? (listOf? r) = some found := by
    refine Option.isSome_iff_exists.mp (List.findSome?_isSome_iff.mpr ⟨n, hn, ?_⟩)
    rw [hlist]
    rfl
  have hfix : canFix d = true := decide_eq_true hid
  rw [fixFor?, if_pos hfix, hfind, Option.bind_some, fixed?, hfound]
  exact ⟨_, rfl⟩

end TierHost.EventOrder
