import TierHost.Proofs.Code.Places
import TierHost.Proofs.Symbols.Outline

/-!
The traversals of syntax trees and of symbol trees. Both keep a stack, from which every turn takes one
entry; both end after as many turns as the tree has entries, and have then given the tree in pre-order,
the outline with the depth of every symbol.
-/

namespace TierHost

open Places

namespace Node

/-- A walk ends after one turn for every node. -/
theorem length_walkFrom (ns : List Node) : (walkFrom ns).length = sizeAll ns := by
  fun_induction walkFrom ns with
  | case1 => rfl
  | case2 n rest ih =>
    rw [List.length_cons, ih, sizeAll_append, sizeAll, size_eq n]
    omega

theorem walkFrom_cons (n : Node) (rest : List Node) :
    walkFrom (n :: rest) = n :: walkFrom (n.children ++ rest) := by
  rw [walkFrom]

theorem walkFrom_nil : walkFrom [] = [] := by
  rw [walkFrom]

theorem getElem?_walk (n : Node) (k : Nat) :
    n.walk[k]? = ((turn children)^[k] [n]).getLast? :=
  getElem?_traverse walkFrom_nil walkFrom_cons k [n]

theorem iterate_turn_eq_nil (n : Node) (k : Nat) :
    (turn children)^[k] [n] = [] ↔ n.size ≤ k := by
  have hlength : (walkFrom [n]).length = n.size := by
    rw [length_walkFrom, sizeAll, sizeAll, Nat.add_zero]
  rw [← hlength]
  exact iterate_turn_eq_nil_iff walkFrom_nil walkFrom_cons k [n]

/-- The node is at the location, and of the kind if one is given. -/
def Fits (location : Location) (kind : Option Kind) (m : Node) : Prop :=
  m.location = location ∧ ∀ k ∈ kind, m.kind = k

theorem fits_iff {location : Location} {kind : Option Kind} {m : Node} :
    (decide (m.location = location) && kind.all (m.kind = ·)) = true ↔ m.Fits location kind := by
  rw [Bool.and_eq_true, decide_eq_true_eq]
  cases kind <;> simp [Fits]

/-- What is found is the first node in pre-order that fits. -/
theorem find?_eq_some_iff {n m : Node} {location : Location} {kind : Option Kind} :
    n.find? location kind = some m ↔ ∃ before after, n.preorder = before ++ m :: after ∧
      m.Fits location kind ∧ ∀ b ∈ before, ¬ b.Fits location kind := by
  rw [find?, List.find?_eq_some_iff_append, fits_iff, walk_eq_preorder]
  simp only [Bool.not_eq_true', ← Bool.not_eq_true, fits_iff]
  constructor
  · rintro ⟨hm, before, after, hsplit, hbefore⟩
    exact ⟨before, after, hsplit, hm, hbefore⟩
  · rintro ⟨before, after, hsplit, hm, hbefore⟩
    exact ⟨hm, before, after, hsplit, hbefore⟩

theorem find?_eq_none_iff {n : Node} {location : Location} {kind : Option Kind} :
    n.find? location kind = none ↔ ∀ m ∈ n.preorder, ¬ m.Fits location kind := by
  rw [find?, List.find?_eq_none, walk_eq_preorder]
  simp only [fits_iff]

end Node

namespace Member

theorem wellFounded_children : WellFounded fun child m : Member => child ∈ m.children :=
  ⟨fun m => by
    induction m using Member.induction_children with
    | inside m ih => exact Acc.intro m ih⟩

/-- What is directly inside a symbol, one level deeper than the symbol. -/
def deeper (e : Nat × Member) : List (Nat × Member) :=
  e.2.children.map fun child => (e.1 + 1, child)

theorem length_preorderFrom (pending : List (Nat × Member)) :
    (preorderFrom pending).length = pendingSize pending := by
  fun_induction preorderFrom pending with
  | case1 => rfl
  | case2 depth m rest ih =>
    have hinside : pendingSize (m.children.map (fun child => (depth + 1, child)) ++ rest) =
        sizeList m.children + pendingSize rest := by
      rw [pendingSize, List.map_append, sizeList_append, List.map_map]
      exact congrArg (sizeList · + pendingSize rest) (List.map_id m.children)
    have hall : pendingSize ((depth, m) :: rest) = m.size + pendingSize rest := rfl
    rw [List.length_cons, ih, hinside, hall, size_eq m]
    omega

theorem preorderFrom_nil : preorderFrom [] = [] := by
  rw [preorderFrom]

theorem preorderFrom_cons (e : Nat × Member) (rest : List (Nat × Member)) :
    preorderFrom (e :: rest) = e :: preorderFrom (deeper e ++ rest) := by
  rw [preorderFrom]
  rfl

/-- The symbols of a tree and their depths, read off its places. -/
theorem exists_preorder_inOrder (m : Member) :
    ∃ entries, InOrder children m entries ∧
      ∀ depth, preorderFrom [(depth, m)] = entries.map fun e => (depth + e.1.length, e.2) := by
  refine exists_inOrder wellFounded_children (fun depth m => preorderFrom [(depth, m)])
    (fun depth m => (depth, m)) ?_ m
  intro depth m
  rw [preorderFrom_cons, List.append_nil]
  exact congrArg ((depth, m) :: ·) (preorderFrom_map (depth + 1) m.children)

end Member

theorem Assembly.getElem?_preorder (a : Assembly) (k : Nat) :
    a.preorder[k]? = ((turn Member.deeper)^[k] [(1, a.root.toMember)]).getLast? :=
  getElem?_traverse Member.preorderFrom_nil Member.preorderFrom_cons k [(1, a.root.toMember)]

theorem Assembly.iterate_turn_eq_nil (a : Assembly) (k : Nat) :
    (turn Member.deeper)^[k] [(1, a.root.toMember)] = [] ↔ a.root.toMember.size ≤ k := by
  have hlength : (preorderFrom [(1, a.root.toMember)]).length = a.root.toMember.size := by
    rw [Member.length_preorderFrom, pendingSize, List.map_singleton, Member.sizeList,
      Member.sizeList, Nat.add_zero]
  rw [← hlength]
  exact iterate_turn_eq_nil_iff Member.preorderFrom_nil Member.preorderFrom_cons k
    [(1, a.root.toMember)]

/-- A walk through a syntax tree gives what is on top of its stack, turn by turn, and ends when the
stack is empty, which it is after one turn for every node. This is the recursive pre-order: what stands
at the places of the tree, in their order; so a search finds the first node that fits. The outline of
an assembly comes about in the same way: it has one line for every symbol, with the depth of its place,
which is one for the global namespace. -/
theorem traversals_preorder :
    (∀ n : Node,
      (∀ k, n.walk[k]? = ((turn Node.children)^[k] [n]).getLast?) ∧
      (∀ k, (turn Node.children)^[k] [n] = [] ↔ n.size ≤ k) ∧
      n.walk = n.preorder ∧
      (∃ entries, InOrder Node.children n entries ∧ n.walk = entries.map (·.2)) ∧
      (∀ location kind m, n.find? location kind = some m ↔ ∃ before after,
        n.preorder = before ++ m :: after ∧ m.Fits location kind ∧
          ∀ b ∈ before, ¬ b.Fits location kind) ∧
      ∀ location kind, n.find? location kind = none ↔
        ∀ m ∈ n.preorder, ¬ m.Fits location kind) ∧
    ∀ a : Assembly,
      (∀ k, a.preorder[k]? = ((turn Member.deeper)^[k] [(1, a.root.toMember)]).getLast?) ∧
      (∀ k, (turn Member.deeper)^[k] [(1, a.root.toMember)] = [] ↔ a.root.toMember.size ≤ k) ∧
      ∃ entries, InOrder Member.children a.root.toMember entries ∧
        a.preorder = entries.map (fun e => (1 + e.1.length, e.2)) ∧
        a.outline = ("assembly:" ++ a.name) :: entries.map fun e =>
          toString (1 + e.1.length) ++ ":" ++ (e.2.tag ++ ":" ++ e.2.name) := by
  refine ⟨fun n => ?_, fun a => ?_⟩
  · exact ⟨n.getElem?_walk, n.iterate_turn_eq_nil, n.walk_eq_preorder, n.exists_walk_inOrder,
      fun _ _ _ => Node.find?_eq_some_iff, fun _ _ => Node.find?_eq_none_iff⟩
  · obtain ⟨entries, hinOrder, hdepths⟩ := a.root.toMember.exists_preorder_inOrder
    refine ⟨a.getElem?_preorder, a.iterate_turn_eq_nil, entries, hinOrder, hdepths 1, ?_⟩
    rw [Assembly.outline, Assembly.preorder, hdepths 1, List.map_map]
    refine congrArg (("assembly:" ++ a.name) :: ·) (List.map_congr_left ?_)
    intro e _
    exact Member.line_eq (1 + e.1.length) e.2

end TierHost
