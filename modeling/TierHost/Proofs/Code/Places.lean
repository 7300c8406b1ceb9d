import TierHost.Proofs.Code.Replace
import TierHost.Proofs.Places

/-!
The places of syntax trees: a walk gives what stands at them, in their order, an identity in a tree of
distinct nodes stands at one place, and a line of frames leads to a place.
-/

namespace TierHost.Node

open Places

theorem wellFounded_children : WellFounded fun child n : Node => child ∈ n.children :=
  ⟨fun n => by
    induction n using Node.induction with
    | node n ih => exact Acc.intro n ih⟩

/-- The walk gives what stands at the places of the tree, in their order. -/
theorem exists_walk_inOrder (n : Node) :
    ∃ entries, InOrder children n entries ∧ n.walk = entries.map (·.2) := by
  obtain ⟨entries, hinOrder, hlevels⟩ :=
    exists_inOrder wellFounded_children (fun _ => walk) (fun _ m => m) (fun _ => walk_eq) n
  exact ⟨entries, hinOrder, hlevels 0⟩

theorem mem_ids_iff {n : Node} {id : Nat} :
    id ∈ n.ids ↔ ∃ place, (at? children n place).map (·.id) = some id := by
  obtain ⟨entries, hinOrder, hwalk⟩ := n.exists_walk_inOrder
  rw [ids, hwalk, List.map_map, List.mem_map]
  constructor
  · rintro ⟨⟨place, m⟩, he, rfl⟩
    refine ⟨place, ?_⟩
    rw [(hinOrder.complete place m).mp he]
    rfl
  · rintro ⟨place, hplace⟩
    obtain ⟨m, hm, hid⟩ := Option.map_eq_some_iff.mp hplace
    exact ⟨(place, m), (hinOrder.complete place m).mpr hm, hid⟩

/-- In a tree of distinct nodes an identity stands at one place only. -/
theorem place_unique {n : Node} (h : n.ids.Nodup) {place place' : List Nat} {id : Nat}
    (hplace : (at? children n place).map (·.id) = some id)
    (hplace' : (at? children n place').map (·.id) = some id) : place = place' := by
  obtain ⟨entries, hinOrder, hwalk⟩ := n.exists_walk_inOrder
  obtain ⟨m, hm, hid⟩ := Option.map_eq_some_iff.mp hplace
  obtain ⟨m', hm', hid'⟩ := Option.map_eq_some_iff.mp hplace'
  have hnodup : (entries.map fun e => e.2.id).Nodup := by
    rwa [ids, hwalk, List.map_map] at h
  have hsame : (place, m) = (place', m') :=
    List.inj_on_of_nodup_map hnodup ((hinOrder.complete place m).mpr hm)
      ((hinOrder.complete place' m').mpr hm') (hid.trans hid'.symm)
  exact congrArg Prod.fst hsame

/-- The place that a line of frames leads to. -/
def route (fs : List Frame) : List Nat := fs.map (·.before.length)

theorem Frame.getElem?_children_fill (f : Frame) (n : Node) :
    (f.fill n).children[f.before.length]? = some n := by
  change (f.before ++ n :: f.after)[f.before.length]? = some n
  rw [List.getElem?_append_right (Nat.le_refl _), Nat.sub_self, List.getElem?_cons_zero]

theorem Frame.getElem?_children_fill_of_ne (f : Frame) {i : Nat} (h : i ≠ f.before.length)
    (n n' : Node) : (f.fill n).children[i]? = (f.fill n').children[i]? := by
  change (f.before ++ n :: f.after)[i]? = (f.before ++ n' :: f.after)[i]?
  rcases Nat.lt_or_gt_of_ne h with hlt | hgt
  · rw [List.getElem?_append_left hlt, List.getElem?_append_left hlt]
  · obtain ⟨j, rfl⟩ : ∃ j, i = f.before.length + (j + 1) := ⟨i - f.before.length - 1, by omega⟩
    rw [List.getElem?_append_right (by omega), List.getElem?_append_right (by omega),
      Nat.add_sub_cancel_left, List.getElem?_cons_succ, List.getElem?_cons_succ]

theorem at?_plug (fs : List Frame) (n : Node) (below : List Nat) :
    at? children (plug fs n) (route fs ++ below) = at? children n below := by
  induction fs with
  | nil => rfl
  | cons f fs ih =>
    change ((f.fill (plug fs n)).children[f.before.length]?.bind fun child =>
      at? children child (route fs ++ below)) = _
    rw [f.getElem?_children_fill]
    exact ih

/-- A place of a tree is where some line of frames leads to. -/
theorem exists_route {n m : Node} {place : List Nat} (h : at? children n place = some m) :
    ∃ fs, route fs = place ∧ n = plug fs m := by
  induction place generalizing n with
  | nil => exact ⟨[], rfl, Option.some.inj h⟩
  | cons i place ih =>
    obtain ⟨child, hchild, hm⟩ := at?_cons_eq_some_iff.mp h
    obtain ⟨fs, hroute, hplug⟩ := ih hm
    obtain ⟨hi, hget⟩ := List.getElem?_eq_some_iff.mp hchild
    -- the frame at the root is the root without this child
    let f : Frame := ⟨n.id, n.kind, n.location, n.name, n.missing, n.children.take i,
      n.children.drop (i + 1)⟩
    refine ⟨f :: fs, ?_, ?_⟩
    · have hlength : f.before.length = i := List.length_take_of_le (Nat.le_of_lt hi)
      rw [route, List.map_cons, hlength]
      exact congrArg (i :: ·) hroute
    · have hsplit : n.children = n.children.take i ++ child :: n.children.drop (i + 1) := by
        rw [← hget, ← List.drop_eq_getElem_cons hi, List.take_append_drop]
      change n = ⟨n.id, n.kind, n.location, n.name, n.missing,
        n.children.take i ++ plug fs m :: n.children.drop (i + 1)⟩
      rw [← hplug, ← hsplit]
      cases n
      rfl

end TierHost.Node
