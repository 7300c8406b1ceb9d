import TierHost.Proofs.Code.Walk

/-!
Trees rebuilt from the leaves up, without identities. Two trees are the same to a reader exactly if they
are equal without identities.
-/

namespace TierHost.Node

mutual

/-- The tree without identities, in which the rebuilt children of each node are changed. -/
def rebuild (change : Node → List Node → List Node) : Node → Node
  | ⟨id, kind, location, name, missing, children⟩ =>
    ⟨0, kind, location, name, missing,
      change ⟨id, kind, location, name, missing, children⟩ (rebuildAll change children)⟩

def rebuildAll (change : Node → List Node → List Node) : List Node → List Node
  | [] => []
  | n :: ns => n.rebuild change :: rebuildAll change ns

end

/-- The tree without identities. -/
def plain (n : Node) : Node := n.rebuild fun _ children => children

variable (change : Node → List Node → List Node)

theorem rebuildAll_eq (ns : List Node) : rebuildAll change ns = ns.map (rebuild change) := by
  induction ns with
  | nil => rfl
  | cons n ns ih => rw [rebuildAll, ih, List.map_cons]

theorem rebuild_eq (n : Node) : n.rebuild change =
    ⟨0, n.kind, n.location, n.name, n.missing, change n (n.children.map (rebuild change))⟩ := by
  rw [← rebuildAll_eq]
  cases n
  rfl

end TierHost.Node
