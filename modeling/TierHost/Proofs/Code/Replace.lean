import TierHost.Proofs.Code.Walk
import Mathlib.Data.List.Nodup

/-!
Places in syntax trees. A place is a line of frames from the root down, and the tree is these frames
filled with the node at the place. Replacing a node fills the frames with another one, and gives them
new identities.
-/

namespace TierHost.Node

/-- The identities in a tree, in pre-order. -/
def ids (n : Node) : List Nat := n.walk.map (·.id)

theorem ids_eq (n : Node) : n.ids = n.id :: n.children.flatMap ids := by
  rw [ids, walk_eq, List.map_cons, List.map_flatMap]
  rfl

/-- In a tree of distinct nodes a node is known by its identity. -/
theorem eq_of_id_eq {n m m' : Node} (hn : n.ids.Nodup) (hm : m ∈ n.walk) (hm' : m' ∈ n.walk)
    (h : m.id = m'.id) : m = m' := List.inj_on_of_nodup_map hn hm hm' h

/-- A node of which one child is left out. -/
structure Frame where
  id : Nat
  kind : Kind
  location : Location
  name : String
  missing : Bool
  before : List Node
  after : List Node

namespace Frame

/-- The node with this child. -/
def fill (f : Frame) (n : Node) : Node :=
  ⟨f.id, f.kind, f.location, f.name, f.missing, f.before ++ n :: f.after⟩

/-- The identities in the trees beside the missing child. -/
def besides (f : Frame) : List Nat := (f.before ++ f.after).flatMap ids

theorem ids_fill (f : Frame) (n : Node) : (f.fill n).ids.Perm (f.id :: (f.besides ++ n.ids)) := by
  rw [ids_eq, fill, besides]
  refine List.Perm.cons f.id ?_
  rw [List.flatMap_append, List.flatMap_append, List.flatMap_cons, List.append_assoc]
  exact (List.Perm.append_left _ List.perm_append_comm)

end Frame

/-- The frames filled with one another, the last one with the node. -/
def plug (fs : List Frame) (n : Node) : Node := fs.foldr Frame.fill n

theorem plug_append (fs gs : List Frame) (n : Node) : plug (fs ++ gs) n = plug fs (plug gs n) :=
  List.foldr_append

/-- The nodes of a tree are those that stand at some place of it. -/
theorem exists_plug {n m : Node} (h : m ∈ n.walk) : ∃ fs, n = plug fs m := by
  induction n using Node.induction with
  | node n ih =>
    rcases mem_walk.mp h with rfl | ⟨child, hchild, hm⟩
    · exact ⟨[], rfl⟩
    · obtain ⟨before, after, hsplit⟩ := List.append_of_mem hchild
      obtain ⟨fs, rfl⟩ := ih child hchild hm
      refine ⟨⟨n.id, n.kind, n.location, n.name, n.missing, before, after⟩ :: fs, ?_⟩
      change n = ⟨n.id, n.kind, n.location, n.name, n.missing, before ++ plug fs m :: after⟩
      rw [← hsplit]
      cases n
      rfl

/-- The identities in a tree: those of the frames, those beside the place, and those at it. -/
theorem ids_plug (fs : List Frame) (n : Node) :
    (plug fs n).ids.Perm (fs.map (·.id) ++ (fs.flatMap Frame.besides ++ n.ids)) := by
  induction fs with
  | nil => exact List.Perm.refl _
  | cons f fs ih =>
    refine (f.ids_fill (plug fs n)).trans ?_
    rw [List.map_cons, List.flatMap_cons, List.cons_append]
    refine List.Perm.cons f.id ?_
    refine (List.Perm.append_left f.besides ih).trans ?_
    rw [List.append_assoc]
    exact List.perm_append_comm_assoc _ _ _

/-- The frames with the identities from `fresh` on. -/
def renumber (fresh : Nat) : List Frame → List Frame
  | [] => []
  | f :: fs => { f with id := fresh } :: renumber (fresh + 1) fs

theorem renumber_append (fresh : Nat) (fs gs : List Frame) :
    renumber fresh (fs ++ gs) = renumber fresh fs ++ renumber (fresh + fs.length) gs := by
  induction fs generalizing fresh with
  | nil => rfl
  | cons f fs ih =>
    have hlength : fresh + (f :: fs).length = fresh + 1 + fs.length := by
      rw [List.length_cons]
      omega
    rw [List.cons_append, renumber, ih, renumber, hlength]
    rfl

theorem map_id_renumber (fresh : Nat) (fs : List Frame) :
    (renumber fresh fs).map (·.id) = List.range' fresh fs.length := by
  induction fs generalizing fresh with
  | nil => rfl
  | cons f fs ih =>
    rw [renumber, List.map_cons, ih]
    rfl

theorem besides_renumber (fresh : Nat) (fs : List Frame) :
    (renumber fresh fs).flatMap Frame.besides = fs.flatMap Frame.besides := by
  induction fs generalizing fresh with
  | nil => rfl
  | cons f fs ih =>
    rw [renumber, List.flatMap_cons, List.flatMap_cons, ih]
    rfl

theorem replaceFrom_eq (old : Nat) (new : Node) (fresh : Nat) (n : Node) :
    replaceFrom old new fresh n =
      if n.id = old then if new.id = old then none else some new
      else (replaceAmong old new (fresh + 1) n.children).map (n.withChildren fresh) := by
  cases n
  rw [replaceFrom]
  rfl

/-- Trees of which none is changed stay as they are. -/
theorem replaceAmong_eq_none {old : Nat} {new : Node} {fresh : Nat} {ns : List Node}
    (h : ∀ m ∈ ns, replaceFrom old new fresh m = none) : replaceAmong old new fresh ns = none := by
  induction ns with
  | nil => rfl
  | cons m ns ih =>
    rw [replaceAmong, h m List.mem_cons_self, ih fun m' hm' => h m' (List.mem_cons_of_mem m hm')]
    rfl

/-- A tree without the node stays as it is. -/
theorem replaceFrom_of_notMem {old : Nat} {n : Node} (h : old ∉ n.ids) (new : Node) (fresh : Nat) :
    replaceFrom old new fresh n = none := by
  induction n using Node.induction generalizing fresh with
  | node n ih =>
    rw [ids_eq, List.mem_cons, List.mem_flatMap] at h
    have hne : ¬ n.id = old := fun he => h (Or.inl he.symm)
    have hchildren : replaceAmong old new (fresh + 1) n.children = none := by
      apply replaceAmong_eq_none
      intro m hm
      have hmids : old ∉ m.ids := fun hold => h (Or.inr ⟨m, hm, hold⟩)
      exact ih m hm hmids (fresh + 1)
    rw [replaceFrom_eq, if_neg hne, hchildren]
    rfl

/-- The node is replaced in the first of the trees that holds it. -/
theorem replaceAmong_append {old : Nat} {new n n' : Node} {fresh : Nat} {before : List Node}
    (hbefore : ∀ m ∈ before, old ∉ m.ids) (hn : replaceFrom old new fresh n = some n')
    (after : List Node) :
    replaceAmong old new fresh (before ++ n :: after) = some (before ++ n' :: after) := by
  induction before with
  | nil => rw [List.nil_append, replaceAmong, hn, List.nil_append]
  | cons m before ih =>
    have hm := replaceFrom_of_notMem (hbefore m List.mem_cons_self) new fresh
    rw [List.cons_append, replaceAmong, hm, ih fun m' hm' => hbefore m' (List.mem_cons_of_mem m hm')]
    rfl

/-- Replacing the node at a place, of which there is no other with its identity, fills the same frames
with the new node. -/
theorem replaceFrom_plug {fs : List Frame} {n new : Node}
    (hids : ∀ f ∈ fs, n.id ≠ f.id ∧ n.id ∉ f.besides) (hnew : new.id ≠ n.id) (fresh : Nat) :
    replaceFrom n.id new fresh (plug fs n) = some (plug (renumber fresh fs) new) := by
  induction fs generalizing fresh with
  | nil =>
    rw [replaceFrom_eq]
    change (if n.id = n.id then if new.id = n.id then none else some new else _) = _
    rw [if_pos rfl, if_neg hnew]
    rfl
  | cons f fs ih =>
    obtain ⟨hne, hbesides⟩ := hids f List.mem_cons_self
    have hbefore : ∀ m ∈ f.before, n.id ∉ m.ids := fun m hm hid =>
      hbesides (List.mem_flatMap.mpr ⟨m, List.mem_append_left _ hm, hid⟩)
    have hinner := ih (fun g hg => hids g (List.mem_cons_of_mem f hg)) (fresh + 1)
    have hchildren := replaceAmong_append hbefore hinner f.after
    rw [replaceFrom_eq]
    change (if f.id = n.id then _ else
      (replaceAmong n.id new (fresh + 1) (f.before ++ plug fs n :: f.after)).map _) = _
    rw [if_neg (Ne.symm hne), hchildren]
    rfl

theorem le_largestId {n : Node} {i : Nat} (h : i ∈ n.ids) : i ≤ n.largestId := by
  have hle : i ≤ n.ids.max (List.ne_nil_of_mem h) := List.le_max_of_mem h
  have hmax : n.largestId = max 0 (n.ids.max (List.ne_nil_of_mem h)) :=
    List.foldl_max_eq_max (List.ne_nil_of_mem h)
  omega

/-- The node at a place of a tree of distinct nodes is not one of the others. -/
theorem id_notMem_frames {fs : List Frame} {n : Node} (h : (plug fs n).ids.Nodup) :
    ∀ f ∈ fs, n.id ≠ f.id ∧ n.id ∉ f.besides := by
  intro f hf
  have hperm := (ids_plug fs n).nodup_iff.mp h
  rw [← List.append_assoc] at hperm
  have hdisjoint := (List.nodup_append.mp hperm).2.2
  have hid : n.id ∈ n.ids := by
    rw [ids_eq]
    exact List.mem_cons_self
  refine ⟨?_, ?_⟩
  · have hmem : f.id ∈ fs.map (·.id) ++ fs.flatMap Frame.besides :=
      List.mem_append_left _ (List.mem_map_of_mem hf)
    exact (hdisjoint _ hmem _ hid).symm
  · intro hbesides
    have hmem : n.id ∈ fs.map (·.id) ++ fs.flatMap Frame.besides :=
      List.mem_append_right _ (List.mem_flatMap.mpr ⟨f, hf, hbesides⟩)
    exact hdisjoint _ hmem _ hid rfl

/-- Replacing the node at a place of a tree of distinct nodes fills the frames of the place, renumbered,
with the new node. -/
theorem replace_plug {fs : List Frame} {n new : Node} (h : (plug fs n).ids.Nodup)
    (hnew : new.id ≠ n.id) :
    (plug fs n).replace n.id new =
      plug (renumber (max (plug fs n).largestId new.largestId + 1) fs) new := by
  rw [replace, replace?, replaceFrom_plug (id_notMem_frames h) hnew]
  rfl

/-- With larger identities for the frames the nodes are distinct again, if those that are kept and the
new ones are. -/
theorem nodup_ids_renumber {fs : List Frame} {new : Node} {fresh : Nat}
    (hnodup : (fs.flatMap Frame.besides ++ new.ids).Nodup)
    (hfresh : ∀ i ∈ fs.flatMap Frame.besides ++ new.ids, i < fresh) :
    (plug (renumber fresh fs) new).ids.Nodup := by
  rw [(ids_plug _ new).nodup_iff, map_id_renumber, besides_renumber]
  refine List.nodup_append.mpr ⟨List.nodup_range', hnodup, ?_⟩
  intro i hi j hj
  have hge : fresh ≤ i := (List.mem_range'_1.mp hi).1
  have hlt : j < fresh := hfresh j hj
  omega

/-- The nodes stay distinct when a node is replaced by one with a new identity and the same trees below
it, in any order. -/
theorem nodup_ids_replace {fs : List Frame} {n new : Node} (h : (plug fs n).ids.Nodup)
    (hnew : ∀ i ∈ (plug fs n).ids, i < new.id)
    (hbelow : (new.children.flatMap ids).Perm (n.children.flatMap ids)) :
    ((plug fs n).replace n.id new).ids.Nodup := by
  -- the identities that are kept: those beside the frames, and those below the node
  let kept := fs.flatMap Frame.besides ++ n.children.flatMap ids
  have hperm : (plug fs n).ids.Perm (fs.map (·.id) ++ n.id :: kept) := by
    refine (ids_plug fs n).trans (List.Perm.append_left _ ?_)
    rw [ids_eq n]
    exact List.perm_middle
  have hold : (n.id :: kept).Nodup := (List.nodup_append.mp (hperm.nodup_iff.mp h)).2.1
  have hlt : ∀ i ∈ n.id :: kept, i < new.id := fun i hi =>
    hnew i (hperm.mem_iff.mpr (List.mem_append_right _ hi))
  have hnewids : (fs.flatMap Frame.besides ++ new.ids).Perm (new.id :: kept) := by
    rw [ids_eq new]
    exact List.perm_middle.trans (List.Perm.cons _ (List.Perm.append_left _ hbelow))
  have hne : new.id ≠ n.id := by
    have := hlt n.id List.mem_cons_self
    omega
  rw [replace_plug h hne]
  refine nodup_ids_renumber ?_ ?_
  · rw [hnewids.nodup_iff, List.nodup_cons]
    refine ⟨fun hmem => ?_, (List.nodup_cons.mp hold).2⟩
    have := hlt new.id (List.mem_cons_of_mem _ hmem)
    omega
  · intro i hi
    have hself : new.id ≤ new.largestId := by
      refine le_largestId ?_
      rw [ids_eq]
      exact List.mem_cons_self
    rcases List.mem_cons.mp (hnewids.mem_iff.mp hi) with rfl | hkept
    · omega
    · have := hlt i (List.mem_cons_of_mem _ hkept)
      omega

end TierHost.Node
