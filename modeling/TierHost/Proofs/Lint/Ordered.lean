import TierHost.Proofs.Code.Rebuild
import TierHost.Proofs.Lint.Swap

/-!
The tree that fixing ends at: every event that is reported at one of some places has its accessors the
other way round. One swap at such a place leads to the same tree, and a tree in which none of them is
reported is that tree itself.
-/

namespace TierHost.EventOrder

open Node

/-- The nodes with the children of the first accessor list reversed. -/
def reverseFirst : List Node → List Node
  | [] => []
  | n :: ns =>
    if n.kind = .accessorList then n.withChildren n.id n.children.reverse :: ns
    else n :: reverseFirst ns

theorem reverseFirst_append {before : List Node} {list : Node}
    (hbefore : ∀ m ∈ before, m.kind ≠ .accessorList) (hlist : list.kind = .accessorList)
    (after : List Node) :
    reverseFirst (before ++ list :: after) =
      before ++ list.withChildren list.id list.children.reverse :: after := by
  induction before with
  | nil => rw [List.nil_append, reverseFirst, if_pos hlist, List.nil_append]
  | cons m before ih =>
    rw [List.cons_append, reverseFirst, if_neg (hbefore m List.mem_cons_self),
      ih fun m' hm' => hbefore m' (List.mem_cons_of_mem m hm'), List.cons_append]

/-- The tree, without identities, in which the accessors of every event that is reported at one of these
places are the other way round. -/
def ordered (at? : Location → Bool) (n : Node) : Node :=
  n.rebuild fun n children => if (reported? n).any at? then reverseFirst children else children

variable {at? : Location → Bool}

theorem ordered_eq (n : Node) : ordered at? n =
    ⟨0, n.kind, n.location, n.name, n.missing,
      if (reported? n).any at? then reverseFirst (n.children.map (ordered at?))
      else n.children.map (ordered at?)⟩ :=
  rebuild_eq _ n

/-- Swapping two accessors at one of the places does not change where fixing ends. -/
theorem Swaps.ordered_congr {place : Location} {n n' : Node} (h : Swaps place n n')
    (hplace : at? place = true) : ordered at? n = ordered at? n' := by
  induction h with
  | @here n list remove add before after hevent hm hremove i j =>
    have hn : (reported? n).any at? = true := by
      rw [hm.reported?_eq_some hevent, hremove]
      exact hplace
    -- reversing the two accessors where they are reported gives what they are in the other tree already
    have hnone : ¬ list.kind = .eventDeclaration := by
      rw [hm.kind]
      decide
    have hlist : ordered at? list = ⟨0, list.kind, list.location, list.name, list.missing,
        [ordered at? remove, ordered at? add]⟩ := by
      rw [ordered_eq, reported?, if_neg hnone, hm.accessors]
      rfl
    have hlist' : ordered at? (list.withChildren j [add, remove]) =
        ⟨0, list.kind, list.location, list.name, list.missing,
          [ordered at? add, ordered at? remove]⟩ := by
      have hnone' : reported? (list.withChildren j [add, remove]) = none := if_neg hnone
      rw [ordered_eq, hnone']
      rfl
    have hkind : (ordered at? list).kind = .accessorList := by
      rw [hlist]
      exact hm.kind
    have hbefore : ∀ m ∈ before.map (ordered at?), m.kind ≠ .accessorList := by
      intro m' hm'
      obtain ⟨m, hmem, rfl⟩ := List.mem_map.mp hm'
      rw [ordered_eq]
      exact hm.first m hmem
    rw [ordered_eq, ordered_eq, hn, hm.reported?_swapped i j, hm.children,
      children_withChildren, List.map_append, List.map_append, List.map_cons, List.map_cons,
      if_pos rfl, reverseFirst_append hbefore hkind, hlist', hlist]
    rfl
  | @inside n child child' before after h hchildren i ih =>
    rw [ordered_eq, ordered_eq, h.reported?_withChildren hchildren i, hchildren,
      children_withChildren, List.map_append, List.map_append, List.map_cons, List.map_cons, ih]
    rfl

/-- A tree in which nothing is reported at these places is where fixing ends. -/
theorem ordered_eq_plain {n : Node} (h : ∀ place ∈ reported n, at? place = false) :
    ordered at? n = n.plain := by
  induction n using Node.induction with
  | node n ih =>
    rw [reported_eq] at h
    have hself : (reported? n).any at? = false := by
      cases hn : reported? n with
      | none => rfl
      | some place => exact h place (List.mem_append_left _ (by simp [hn]))
    have hchildren : n.children.map (ordered at?) = n.children.map plain := by
      refine List.map_congr_left fun child hchild => ih child hchild fun place hplace => ?_
      exact h place (List.mem_append_right _ (List.mem_flatMap.mpr ⟨child, hchild, hplace⟩))
    rw [ordered_eq, hself, hchildren, plain, rebuild_eq]
    rfl

end TierHost.EventOrder
