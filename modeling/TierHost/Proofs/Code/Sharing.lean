import TierHost.Proofs.Code.Places

/-!
Replacing a node shares the rest of the tree: the new tree stands where the node stood, the nodes above
that place are built anew, each with one other child, and what stands elsewhere is what stood there
before. Where there is nothing to replace the tree itself is returned.
-/

namespace TierHost.Node

open Places

/-- A node built anew from another one, with a different child at one index. -/
structure Rebuilt (m m' : Node) (i : Nat) (child : Node) : Prop where
  kind : m'.kind = m.kind
  location : m'.location = m.location
  name : m'.name = m.name
  missing : m'.missing = m.missing
  children : m'.children = m.children.set i child
  among : i < m.children.length

/-- The tree `result` is `root` with the tree `new` at a place. Nodes that are built anew have the
identities from `fresh` on. -/
structure ReplacedAt (root new result : Node) (place : List Nat) (fresh : Nat) : Prop where
  /-- At the place, and below it, stands what is in the new tree. -/
  within : ∀ below, at? children result (place ++ below) = at? children new below
  /-- Off the way from the root to the place stands what stood there. -/
  apart : ∀ other, ¬ place <+: other → ¬ other <+: place →
    at? children result other = at? children root other
  /-- On the way to the place the nodes are built anew. -/
  above : ∀ upper i, upper ++ [i] <+: place → ∃ m m' child,
    at? children root upper = some m ∧ at? children result upper = some m' ∧
      at? children result (upper ++ [i]) = some child ∧ Rebuilt m m' i child ∧
      m'.id = fresh + upper.length

theorem Frame.rebuilt (f : Frame) (n n' : Node) (id : Nat) :
    Rebuilt (f.fill n) (({ f with id } : Frame).fill n') f.before.length n' where
  kind := rfl
  location := rfl
  name := rfl
  missing := rfl
  children := by
    change f.before ++ n' :: f.after = (f.before ++ n :: f.after).set f.before.length n'
    rw [List.set_append_right _ _ (Nat.le_refl _), Nat.sub_self, List.set_cons_zero]
  among := by
    change f.before.length < (f.before ++ n :: f.after).length
    rw [List.length_append, List.length_cons]
    omega

theorem route_renumber (fresh : Nat) (fs : List Frame) : route (renumber fresh fs) = route fs := by
  induction fs generalizing fresh with
  | nil => rfl
  | cons f fs ih => exact congrArg (f.before.length :: ·) (ih (fresh + 1))

/-- Off the way that the frames lead, neither their identities nor what fills them matter. -/
theorem at?_renumber_apart {fs : List Frame} {other : List Nat} (hbelow : ¬ route fs <+: other)
    (habove : ¬ other <+: route fs) (n n' : Node) (fresh : Nat) :
    at? children (plug (renumber fresh fs) n') other = at? children (plug fs n) other := by
  induction fs generalizing other fresh with
  | nil => exact absurd List.nil_prefix hbelow
  | cons f fs ih =>
    cases other with
    | nil => exact absurd List.nil_prefix habove
    | cons i other =>
      let rest := plug fs n
      let rest' := plug (renumber (fresh + 1) fs) n'
      change ((f.fill rest').children[i]?.bind fun child => at? children child other) =
        (f.fill rest).children[i]?.bind fun child => at? children child other
      by_cases hi : i = f.before.length
      · rw [hi, f.getElem?_children_fill, f.getElem?_children_fill]
        have hroute : route (f :: fs) = i :: route fs := by rw [hi]; rfl
        rw [hroute, List.cons_prefix_cons] at hbelow habove
        exact ih (fun h => hbelow ⟨rfl, h⟩) (fun h => habove ⟨rfl, h⟩) (fresh + 1)
      · rw [f.getElem?_children_fill_of_ne hi rest' rest]

/-- On the way that the frames lead, every node is built anew with one child of its own. -/
theorem exists_rebuilt {fs : List Frame} {upper : List Nat} {i : Nat}
    (h : upper ++ [i] <+: route fs) (n n' : Node) (fresh : Nat) :
    ∃ m m' child, at? children (plug fs n) upper = some m ∧
      at? children (plug (renumber fresh fs) n') upper = some m' ∧
      at? children (plug (renumber fresh fs) n') (upper ++ [i]) = some child ∧
      Rebuilt m m' i child ∧ m'.id = fresh + upper.length := by
  induction fs generalizing upper fresh with
  | nil => exact absurd (List.prefix_nil.mp h) (List.append_ne_nil_of_right_ne_nil _ (by simp))
  | cons f fs ih =>
    let rest := plug fs n
    let rest' := plug (renumber (fresh + 1) fs) n'
    cases upper with
    | nil =>
      -- the root itself, and below it what fills its frame
      obtain rfl : i = f.before.length := (List.cons_prefix_cons.mp h).1
      refine ⟨f.fill rest, ({ f with id := fresh } : Frame).fill rest', rest', rfl, rfl, ?_,
        f.rebuilt rest rest' fresh, rfl⟩
      change ((f.fill rest').children[f.before.length]?.bind fun child =>
        at? children child []) = some rest'
      rw [f.getElem?_children_fill]
      rfl
    | cons j upper =>
      obtain ⟨rfl, hrest⟩ := List.cons_prefix_cons.mp h
      obtain ⟨m, m', child, hm, hm', hchild, hrebuilt, hid⟩ := ih hrest (fresh + 1)
      -- one step down the way, in the tree as in the new one
      have hstep (x : Node) (id : Nat) (below : List Nat) :
          at? children (({ f with id } : Frame).fill x) (f.before.length :: below) =
            at? children x below := by
        rw [at?, Frame.getElem?_children_fill { f with id }]
        rfl
      refine ⟨m, m', child, (hstep rest f.id upper).trans hm, (hstep rest' fresh upper).trans hm',
        (hstep rest' fresh (upper ++ [i])).trans hchild, hrebuilt, ?_⟩
      rw [hid, List.length_cons]
      omega

/-- Frames filled with another tree, and numbered from `fresh` on, make the tree with this one at their
place. -/
theorem replacedAt_plug (fs : List Frame) (n new : Node) (fresh : Nat) :
    ReplacedAt (plug fs n) new (plug (renumber fresh fs) new) (route fs) fresh where
  within below := by
    rw [← route_renumber fresh fs]
    exact at?_plug (renumber fresh fs) new below
  apart other hbelow habove := at?_renumber_apart hbelow habove n new fresh
  above upper i h := exists_rebuilt h n new fresh

/-- Replacing a node by itself changes nothing. -/
theorem replaceFrom_self (new : Node) (fresh : Nat) (n : Node) :
    replaceFrom new.id new fresh n = none := by
  induction n using Node.induction generalizing fresh with
  | node n ih =>
    have hchildren : replaceAmong new.id new (fresh + 1) n.children = none :=
      replaceAmong_eq_none fun m hm => ih m hm (fresh + 1)
    rw [replaceFrom_eq, hchildren, if_pos rfl, Option.map_none, ite_self]

/-- Of a tree of distinct nodes exactly one subtree is replaced: the one at the only place where the
identity stands. If it stands nowhere, or is that of the new node, the tree is returned as it is. -/
theorem replace_shares {root : Node} (h : root.ids.Nodup) (old : Nat) (new : Node) :
    (old ∈ root.ids → new.id ≠ old → ∃ place fresh,
      (∀ other, (at? children root other).map (·.id) = some old ↔ other = place) ∧
        (∀ id ∈ root.ids ++ new.ids, id < fresh) ∧
        ReplacedAt root new (root.replace old new) place fresh) ∧
      (old ∉ root.ids ∨ new.id = old → root.replace old new = root) := by
  refine ⟨?_, ?_⟩
  · intro hold hnew
    obtain ⟨place, hplace⟩ := mem_ids_iff.mp hold
    refine ⟨place, max root.largestId new.largestId + 1, ?_, ?_, ?_⟩
    · exact fun other => ⟨fun hother => place_unique h hother hplace, fun hother => hother ▸ hplace⟩
    · intro id hid
      have hle : id ≤ root.largestId ∨ id ≤ new.largestId :=
        (List.mem_append.mp hid).imp le_largestId le_largestId
      omega
    · -- the frames around the place are filled with the new tree
      obtain ⟨n, hn, rfl⟩ := Option.map_eq_some_iff.mp hplace
      obtain ⟨fs, rfl, rfl⟩ := exists_route hn
      rw [replace_plug h hnew]
      exact replacedAt_plug fs n new _
  · intro hnothing
    have hnone : root.replace? old new = none := by
      rcases hnothing with hold | rfl
      · exact replaceFrom_of_notMem hold new _
      · exact replaceFrom_self new _ root
    rw [replace, hnone, Option.getD_none]

/-- Two classes that differ in nothing but the identities of their nodes. -/
def twinClasses : Node :=
  let twin (id : Nat) : Node := ⟨id, .classDeclaration, .unknown, "Clock", false,
    [⟨id + 1, .methodDeclaration, .unknown, "Tick", false, []⟩]⟩
  ⟨0, .compilationUnit, .unknown, "", false, [twin 1, twin 3]⟩

/-- Of two methods that look alike the second is replaced, and the class of the first is kept. -/
theorem replace_shares_twins :
    twinClasses.ids.Nodup ∧
      let new : Node := ⟨7, .propertyDeclaration, .unknown, "Now", false, []⟩
      at? children (twinClasses.replace 4 new) [1, 0] = some new ∧
        at? children (twinClasses.replace 4 new) [0] = at? children twinClasses [0] ∧
        twinClasses.replace 5 new = twinClasses := by
  have hids : twinClasses.ids.Nodup := by
    rw [ids, walk_eq_preorder]
    decide
  have hmem : 4 ∈ twinClasses.ids := mem_ids_iff.mpr ⟨[1, 0], rfl⟩
  have hmiss : 5 ∉ twinClasses.ids := by
    rw [ids, walk_eq_preorder]
    decide
  refine ⟨hids, ?_⟩
  intro new
  obtain ⟨place, fresh, hplace, -, hreplaced⟩ := (replace_shares hids 4 new).1 hmem (by decide)
  obtain rfl : [1, 0] = place := (hplace [1, 0]).mp rfl
  refine ⟨hreplaced.within [], hreplaced.apart [0] (by decide) (by decide), ?_⟩
  exact (replace_shares hids 5 new).2 (Or.inl hmiss)

end TierHost.Node
