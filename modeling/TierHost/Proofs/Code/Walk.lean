import TierHost.Code.Node
import Mathlib.Data.List.Basic

/-!
Walks through syntax trees: the work list of trees that a walk keeps gives the nodes in the order of
the recursion, every node before its children and each child's tree before the next child's.
-/

namespace TierHost.Node

/-- Induction over a node and the nodes below it. -/
@[elab_as_elim]
theorem induction {motive : Node → Prop}
    (node : ∀ n : Node, (∀ child ∈ n.children, motive child) → motive n) : ∀ n, motive n
  | ⟨id, kind, location, name, missing, children⟩ =>
    node ⟨id, kind, location, name, missing, children⟩ fun child _ => Node.induction node child

mutual

/-- The nodes of a tree in pre-order. -/
def preorder : Node → List Node
  | ⟨id, kind, location, name, missing, children⟩ =>
    ⟨id, kind, location, name, missing, children⟩ :: preorderAll children

def preorderAll : List Node → List Node
  | [] => []
  | n :: ns => n.preorder ++ preorderAll ns

end

theorem preorderAll_eq (ns : List Node) : preorderAll ns = ns.flatMap preorder := by
  induction ns with
  | nil => rfl
  | cons n ns ih => rw [preorderAll, ih, List.flatMap_cons]

theorem preorder_eq (n : Node) : n.preorder = n :: n.children.flatMap preorder := by
  rw [← preorderAll_eq]
  cases n
  rfl

theorem walkFrom_eq (ns : List Node) : walkFrom ns = ns.flatMap walk := by
  induction ns with
  | nil => rw [walkFrom, List.flatMap_nil]
  | cons n ns ih =>
    have hsplit := walkFrom_append [n] ns
    rw [ih] at hsplit
    exact hsplit

theorem walk_eq (n : Node) : n.walk = n :: n.children.flatMap walk := by
  rw [walk, walkFrom, List.append_nil, walkFrom_eq]

/-- The walk gives the nodes in pre-order. -/
theorem walk_eq_preorder (n : Node) : n.walk = n.preorder := by
  induction n using Node.induction with
  | node n ih =>
    rw [walk_eq, preorder_eq]
    exact congrArg (n :: ·) (List.flatMap_congr ih)

theorem mem_walk {n m : Node} : m ∈ n.walk ↔ m = n ∨ ∃ child ∈ n.children, m ∈ child.walk := by
  rw [walk_eq, List.mem_cons, List.mem_flatMap]

theorem self_mem_walk (n : Node) : n ∈ n.walk := mem_walk.mpr (Or.inl rfl)

theorem child_mem_walk {n m child : Node} (hm : m ∈ n.walk) (hchild : child ∈ m.children) :
    child ∈ n.walk := by
  induction n using Node.induction with
  | node n ih =>
    rcases mem_walk.mp hm with rfl | ⟨c, hc, hm⟩
    · exact mem_walk.mpr (Or.inr ⟨child, hchild, self_mem_walk child⟩)
    · exact mem_walk.mpr (Or.inr ⟨c, hc, ih c hc hm⟩)

/-- What is found is a node of the tree, at the location and of the kind. -/
theorem find?_some {n m : Node} {location : Location} {k : Kind}
    (h : n.find? location (some k) = some m) :
    m ∈ n.walk ∧ m.location = location ∧ m.kind = k := by
  have hm := List.find?_some h
  simp only [Option.all_some, Bool.and_eq_true, decide_eq_true_eq] at hm
  exact ⟨List.mem_of_find?_eq_some h, hm⟩

/-- The child of a kind is the first of that kind. -/
theorem childOfKind?_eq_some_iff {n child : Node} {k : Kind} :
    n.childOfKind? k = some child ↔ child.kind = k ∧ ∃ before after,
      n.children = before ++ child :: after ∧ ∀ m ∈ before, m.kind ≠ k := by
  rw [childOfKind?, List.find?_eq_some_iff_append]
  simp only [decide_eq_true_eq, Bool.not_eq_true', decide_eq_false_iff_not]

theorem children_withChildren (n : Node) (fresh : Nat) (children : List Node) :
    (n.withChildren fresh children).children = children := rfl

end TierHost.Node
