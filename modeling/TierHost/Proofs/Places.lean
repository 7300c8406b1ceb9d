import Mathlib.Data.List.Basic
import Mathlib.Logic.Function.Iterate
import Mathlib.Tactic.Common

/-!
Places in trees of any kind. A place is a line of child indexes, and pre-order is the order of the
places: a place comes before those that go on from it, and what is below a child comes before what is
below a later one. A loop that keeps a stack, and puts the children of what it takes back in reverse,
gives a tree in this order.
-/

namespace TierHost.Places

variable {α β : Type} (children : α → List α)

/-- What stands at a place of a tree. -/
def at? : α → List Nat → Option α
  | a, [] => some a
  | a, i :: place => (children a)[i]?.bind fun child => at? child place

variable {children}

theorem at?_cons_eq_some_iff {a b : α} {i : Nat} {place : List Nat} :
    at? children a (i :: place) = some b ↔
      ∃ child, (children a)[i]? = some child ∧ at? children child place = some b := by
  rw [at?]
  exact Option.bind_eq_some_iff

/-! ### Pre-order -/

/-- The entries are the places of a tree, each with what stands there, in the order of the places. -/
structure InOrder (children : α → List α) (a : α) (entries : List (List Nat × α)) : Prop where
  ordered : entries.Pairwise fun e e' => e.1 < e'.1
  complete : ∀ place b, (place, b) ∈ entries ↔ at? children a place = some b

/-- The root, and below each child the entries of its tree. -/
def entriesOf (a : α) (children : List α) (below : α → List (List Nat × α)) :
    List (List Nat × α) :=
  ([], a) :: children.zipIdx.flatMap fun c => (below c.1).map fun e => (c.2 :: e.1, e.2)

theorem mem_entriesOf {a b : α} {cs : List α} {below : α → List (List Nat × α)}
    {place : List Nat} :
    (place, b) ∈ entriesOf a cs below ↔
      (place = [] ∧ b = a) ∨ ∃ i rest child, place = i :: rest ∧ cs[i]? = some child ∧
        (rest, b) ∈ below child := by
  simp only [entriesOf, List.mem_cons, Prod.mk.injEq, List.mem_flatMap, List.mem_map]
  apply or_congr Iff.rfl
  constructor
  · rintro ⟨⟨child, i⟩, hchild, ⟨rest, b'⟩, hrest, rfl, rfl⟩
    exact ⟨i, rest, child, rfl, List.mk_mem_zipIdx_iff_getElem?.mp hchild, hrest⟩
  · rintro ⟨i, rest, child, rfl, hchild, hrest⟩
    exact ⟨(child, i), List.mk_mem_zipIdx_iff_getElem?.mpr hchild, (rest, b), hrest, rfl, rfl⟩

theorem pairwise_zipIdx (l : List α) : l.zipIdx.Pairwise fun c c' => c.2 < c'.2 := by
  rw [← List.pairwise_map (f := Prod.snd), List.zipIdx_map_snd]
  exact List.pairwise_lt_range'

/-- The entries of a tree are put together from those of the trees below the root. -/
theorem InOrder.node {a : α} {below : α → List (List Nat × α)}
    (h : ∀ child ∈ children a, InOrder children child (below child)) :
    InOrder children a (entriesOf a (children a) below) where
  ordered := by
    refine List.pairwise_cons.mpr ⟨?_, List.pairwise_flatMap.mpr ⟨?_, ?_⟩⟩
    · intro e he
      obtain ⟨c, -, he⟩ := List.mem_flatMap.mp he
      obtain ⟨e', -, rfl⟩ := List.mem_map.mp he
      exact List.nil_lt_cons _ _
    · -- below one child the order is that of its own tree
      intro c hc
      rw [List.pairwise_map]
      apply ((h c.1 (List.fst_mem_of_mem_zipIdx hc)).ordered).imp
      intro e e' he
      exact List.cons_lt_cons_iff.mpr (Or.inr ⟨rfl, he⟩)
    · -- below different children the first index decides
      apply (pairwise_zipIdx (children a)).imp
      intro c c' hc e he e' he'
      obtain ⟨_, -, rfl⟩ := List.mem_map.mp he
      obtain ⟨_, -, rfl⟩ := List.mem_map.mp he'
      exact List.cons_lt_cons_iff.mpr (Or.inl hc)
  complete := by
    intro place b
    rw [mem_entriesOf]
    cases place with
    | nil => simp [at?, eq_comm]
    | cons i rest =>
      rw [at?_cons_eq_some_iff]
      constructor
      · rintro (⟨hplace, -⟩ | ⟨i', rest', child, hplace, hchild, hrest⟩)
        · cases hplace
        · cases hplace
          exact ⟨child, hchild, ((h child (List.mem_of_getElem? hchild)).complete _ b).mp hrest⟩
      · rintro ⟨child, hchild, hrest⟩
        refine Or.inr ⟨i, rest, child, rfl, hchild, ?_⟩
        exact ((h child (List.mem_of_getElem? hchild)).complete rest b).mpr hrest

/-- A recursive listing of a tree, which gives the root before the listings of its children one level
deeper, is read off the entries in order; the level is the length of the place. -/
theorem exists_inOrder
    (hfounded : WellFounded fun child a => child ∈ children a) (list : Nat → α → List β)
    (give : Nat → α → β) (hlist : ∀ level a, list level a =
      give level a :: (children a).flatMap (list (level + 1))) (a : α) :
    ∃ entries, InOrder children a entries ∧
      ∀ level, list level a = entries.map fun e => give (level + e.1.length) e.2 := by
  induction a using hfounded.induction with
  | h a ih =>
    choose! below hbelow hlevels using ih
    refine ⟨entriesOf a (children a) below, InOrder.node hbelow, ?_⟩
    intro level
    have hchildren : (children a).flatMap (list (level + 1)) =
        (children a).zipIdx.flatMap fun c => list (level + 1) c.1 := by
      conv_lhs => rw [← List.zipIdx_map_fst 0 (children a), List.flatMap_map]
    rw [hlist, hchildren, entriesOf, List.map_cons, List.map_flatMap]
    refine congrArg (give level a :: ·) (List.flatMap_congr ?_)
    intro c hc
    rw [hlevels c.1 (List.fst_mem_of_mem_zipIdx hc), List.map_map]
    apply List.map_congr_left
    intro e _
    have hlevel : level + 1 + e.1.length = level + (c.2 :: e.1).length := by
      rw [List.length_cons]
      omega
    rw [hlevel]
    rfl

/-! ### The stack of a traversal -/

/-- One turn of a traversal whose stack has its top at the end: the top is taken off, and its children
are put on in reverse. -/
def turn (children : α → List α) (stack : List α) : List α :=
  match stack.getLast? with
  | none => []
  | some a => stack.dropLast ++ (children a).reverse

theorem turn_reverse_cons (a : α) (rest : List α) :
    turn children (a :: rest).reverse = (children a ++ rest).reverse := by
  rw [List.reverse_cons, turn, List.getLast?_concat, List.dropLast_concat, List.reverse_append]

theorem iterate_turn_nil (k : Nat) : (turn children)^[k] [] = [] :=
  Function.iterate_fixed rfl k

section Loop

variable {traverse : List α → List α} (hnil : traverse [] = [])
  (hcons : ∀ a rest, traverse (a :: rest) = a :: traverse (children a ++ rest))

include hnil hcons

/-- What a work list gives next is what is on top of the stack in this turn. -/
theorem getElem?_traverse (k : Nat) (pending : List α) :
    (traverse pending)[k]? = ((turn children)^[k] pending.reverse).getLast? := by
  induction k generalizing pending with
  | zero =>
    rw [Function.iterate_zero_apply, List.getLast?_reverse]
    cases pending with
    | nil => rw [hnil]; rfl
    | cons a rest => rw [hcons]; rfl
  | succ k ih =>
    cases pending with
    | nil =>
      rw [hnil, List.reverse_nil, iterate_turn_nil]
      rfl
    | cons a rest =>
      rw [hcons, List.getElem?_cons_succ, ih, Function.iterate_succ_apply, turn_reverse_cons]

/-- The stack is empty after as many turns as there is something to give, and not before. -/
theorem iterate_turn_eq_nil_iff (k : Nat) (pending : List α) :
    (turn children)^[k] pending.reverse = [] ↔ (traverse pending).length ≤ k := by
  rw [← List.getLast?_eq_none_iff, ← getElem?_traverse hnil hcons, List.getElem?_eq_none_iff]

end Loop

end TierHost.Places
