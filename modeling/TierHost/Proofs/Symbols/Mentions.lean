import TierHost.Proofs.Text.Order
import TierHost.Symbols.PathTable
import Mathlib.Algebra.Order.BigOperators.Group.List
import Mathlib.Data.List.Nodup

/-!
What mentions of types add to a tree. The mentions that lead through an inner namespace build that
namespace on their own, so that a tree is described by grouping its mentions by their first segment.
-/

namespace TierHost

/-- A type that is added: the names of the namespaces that lead to it, and its own. -/
abbrev Mention := List String × String

namespace Mention

/-- The members that the mentions build below a path. -/
def tree (path : String) (ms : List Mention) : List Member :=
  ms.foldl (fun members m => addType path m.1 m.2 members) []

/-- The inner namespaces that the mentions lead through first, each one once. -/
def spaces (ms : List Mention) : List String := (ms.filterMap fun m => m.1.head?).eraseDups

/-- The types that are mentioned here, each one once. -/
def types (ms : List Mention) : List String :=
  (ms.filterMap fun m => if m.1.isEmpty then some m.2 else none).eraseDups

/-- The mentions that lead through an inner namespace, as seen from there. -/
def inside (part : String) (ms : List Mention) : List Mention :=
  ms.filterMap fun m => if m.1.head? = some part then some (m.1.tail, m.2) else none

/-- The mentions that lead along a path, as seen from its end. -/
def below (path : List String) (ms : List Mention) : List Mention :=
  path.foldl (fun ms part => inside part ms) ms

variable {ms : List Mention} {part name : String}

theorem nodup_spaces (ms : List Mention) : (spaces ms).Nodup := Text.nodup_eraseDups _

theorem nodup_types (ms : List Mention) : (types ms).Nodup := Text.nodup_eraseDups _

theorem mem_spaces : part ∈ spaces ms ↔ ∃ parts name, (part :: parts, name) ∈ ms := by
  rw [spaces, List.mem_eraseDups, List.mem_filterMap]
  constructor
  · intro h
    obtain ⟨⟨path, name⟩, hm, hpart⟩ := h
    obtain ⟨parts, rfl⟩ := List.head?_eq_some_iff.mp hpart
    exact ⟨parts, name, hm⟩
  · intro h
    obtain ⟨parts, name, hm⟩ := h
    exact ⟨_, hm, rfl⟩

theorem mem_types : name ∈ types ms ↔ ([], name) ∈ ms := by
  rw [types, List.mem_eraseDups, List.mem_filterMap]
  constructor
  · intro h
    obtain ⟨⟨path, other⟩, hm, hname⟩ := h
    cases path with
    | nil =>
      obtain rfl : other = name := Option.some.inj hname
      exact hm
    | cons first rest => cases hname
  · exact fun hm => ⟨_, hm, rfl⟩

theorem mem_inside {m : Mention} : m ∈ inside part ms ↔ (part :: m.1, m.2) ∈ ms := by
  rw [inside, List.mem_filterMap]
  constructor
  · intro h
    obtain ⟨⟨path, name⟩, hm, he⟩ := h
    by_cases hhead : path.head? = some part
    · obtain ⟨parts, rfl⟩ := List.head?_eq_some_iff.mp hhead
      rw [if_pos hhead] at he
      rw [← Option.some.inj he]
      exact hm
    · rw [if_neg hhead] at he
      cases he
  · exact fun hm => ⟨_, hm, if_pos rfl⟩

theorem mem_below {path : List String} {m : Mention} :
    m ∈ below path ms ↔ (path ++ m.1, m.2) ∈ ms := by
  induction path generalizing ms with
  | nil => exact Iff.rfl
  | cons part path ih =>
    calc
      m ∈ below path (inside part ms) ↔ (path ++ m.1, m.2) ∈ inside part ms := ih
      _ ↔ (part :: path ++ m.1, m.2) ∈ ms := mem_inside

theorem below_concat (path : List String) (part : String) (ms : List Mention) :
    below (path ++ [part]) ms = inside part (below path ms) := by
  rw [below, List.foldl_append]
  rfl

theorem inside_eq_nil (h : part ∉ spaces ms) : inside part ms = [] := by
  apply List.eq_nil_iff_forall_not_mem.mpr
  intro m hm
  exact h (mem_spaces.mpr ⟨m.1, m.2, mem_inside.mp hm⟩)

theorem below_nil (path : List String) : below path [] = [] := by
  apply List.eq_nil_iff_forall_not_mem.mpr
  intro m hm
  exact List.not_mem_nil (mem_below.mp hm)

theorem exists_depth (ms : List Mention) : ∃ depth, ∀ m ∈ ms, m.1.length ≤ depth := by
  refine ⟨(ms.map fun m => m.1.length).sum, ?_⟩
  intro m hm
  exact List.le_sum_of_mem (List.mem_map_of_mem hm)

theorem length_le_of_mem_inside {depth : Nat} (h : ∀ m ∈ ms, m.1.length ≤ depth + 1) :
    ∀ m ∈ inside part ms, m.1.length ≤ depth :=
  fun _ hm => Nat.le_of_succ_le_succ (h _ (mem_inside.mp hm))

/-- Induction over mentions by their inner namespaces. -/
@[elab_as_elim]
theorem induction {motive : List Mention → Prop}
    (grouped : ∀ ms, (∀ part ∈ spaces ms, motive (inside part ms)) → motive ms)
    (ms : List Mention) : motive ms := by
  obtain ⟨depth, hdepth⟩ := exists_depth ms
  induction depth generalizing ms with
  | zero =>
    apply grouped
    intro part hpart
    obtain ⟨parts, name, hm⟩ := mem_spaces.mp hpart
    exact absurd (hdepth _ hm) (Nat.not_succ_le_zero _)
  | succ depth ih => exact grouped ms fun part _ => ih _ (length_le_of_mem_inside hdepth)

section Concat

/-! One more mention goes to one group, and the other groups stay as they are. -/

variable (ms : List Mention) (part name : String) (parts : List String)

theorem spaces_concat_nil : spaces (ms ++ [([], name)]) = spaces ms := by
  rw [spaces, List.filterMap_append]
  exact congrArg List.eraseDups (List.append_nil _)

theorem spaces_concat_cons :
    spaces (ms ++ [(part :: parts, name)]) = PathTable.addNew part (spaces ms) := by
  rw [spaces, List.filterMap_append]
  exact Text.eraseDups_concat _ part

theorem types_concat_nil : types (ms ++ [([], name)]) = PathTable.addNew name (types ms) := by
  rw [types, List.filterMap_append]
  exact Text.eraseDups_concat _ name

theorem types_concat_cons : types (ms ++ [(part :: parts, name)]) = types ms := by
  rw [types, List.filterMap_append]
  exact congrArg List.eraseDups (List.append_nil _)

theorem inside_concat_nil : inside part (ms ++ [([], name)]) = inside part ms := by
  rw [inside, List.filterMap_append]
  exact List.append_nil _

theorem inside_concat_self :
    inside part (ms ++ [(part :: parts, name)]) = inside part ms ++ [(parts, name)] := by
  rw [inside, List.filterMap_append]
  exact congrArg (inside part ms ++ ·) (by simp)

theorem inside_concat_of_ne {other : String} (h : part ≠ other) :
    inside other (ms ++ [(part :: parts, name)]) = inside other ms := by
  rw [inside, List.filterMap_append, inside]
  simp [h]

end Concat

end Mention

/-- What is changed in one of several namespaces with distinct names. A name that is not there comes
behind the others. -/
theorem inNamespace_map {path part : String} {change : List Member → List Member}
    {names : List String} (hnames : names.Nodup) {content : String → List Member}
    (hnew : part ∉ names → content part = []) (types : List NamedType) :
    inNamespace path part change
        (names.map (fun name => .space name path (content name)) ++ types.map .type) =
      (PathTable.addNew part names).map (fun name => .space name path
        (if name = part then change (content name) else content name)) ++ types.map .type := by
  induction names with
  | nil =>
    rw [PathTable.addNew, if_neg (by simp), List.nil_append, List.map_singleton, if_pos rfl,
      hnew List.not_mem_nil]
    cases types with
    | nil => rfl
    | cons t types => rfl
  | cons name names ih =>
    rw [List.nodup_cons] at hnames
    rw [List.map_cons, List.cons_append, inNamespace]
    by_cases hname : name = part
    · -- the names behind it are other ones, where nothing changes
      subst hname
      have hrest : names.map (fun other => Member.space other path
            (if other = name then change (content other) else content other)) =
          names.map fun other => .space other path (content other) := by
        apply List.map_congr_left
        intro other hother
        rw [if_neg (ne_of_mem_of_not_mem hother hnames.1)]
      rw [if_pos rfl, PathTable.addNew, if_pos (by simp), List.map_cons, if_pos rfl, hrest]
      rfl
    · have hadd : PathTable.addNew part (name :: names) = name :: PathTable.addNew part names := by
        unfold PathTable.addNew
        by_cases hpart : part ∈ names
        · simp [hpart]
        · simp [hpart, Ne.symm hname]
      have hnew' : part ∉ names → content part = [] := by
        intro hpart
        apply hnew
        rw [List.mem_cons, not_or]
        exact ⟨Ne.symm hname, hpart⟩
      rw [if_neg hname, ih hnames.2 hnew', hadd, List.map_cons, if_neg hname]
      rfl

namespace Mention

theorem tree_concat (path : String) (ms : List Mention) (m : Mention) :
    tree path (ms ++ [m]) = addType path m.1 m.2 (tree path ms) := by
  rw [tree, List.foldl_append]
  rfl

/-- The inner namespace that the mentions build. -/
def space (path : String) (ms : List Mention) (part : String) : Member :=
  .space part path (tree (extendPath path part) (inside part ms))

/-- The type that a mention adds. -/
def type (path name : String) : NamedType := ⟨name, path, "", []⟩

theorem addType_nil {path : String} {members : List Member}
    (hmembers : ∀ m ∈ members, ∃ name parent inner, m = .space name parent inner)
    (names : List String) (name : String) :
    addType path [] name (members ++ (names.map (type path)).map .type) =
      members ++ ((PathTable.addNew name names).map (type path)).map .type := by
  have hspaces : members.any (Member.isTypeNamed name) = false := by
    apply List.any_eq_false.mpr
    intro m hm
    obtain ⟨name, parent, inner, rfl⟩ := hmembers m hm
    exact Bool.false_ne_true
  have htypes : ((names.map (type path)).map Member.type).any (Member.isTypeNamed name) =
      names.contains name := by
    rw [List.any_map, List.any_map, List.contains_eq_any_beq]
    congr 1
    funext other
    exact decide_eq_decide.mpr eq_comm
  rw [addType, List.any_append, hspaces, htypes, Bool.false_or, PathTable.addNew]
  by_cases h : names.contains name = true
  · rw [if_pos h, if_pos h]
  · rw [if_neg h, if_neg h, List.append_assoc, List.map_append, List.map_append]
    rfl

/-- A tree is grouped: every inner namespace is what its own mentions build, and the types come
behind them. -/
theorem tree_eq (path : String) (ms : List Mention) :
    tree path ms = (spaces ms).map (space path ms) ++ ((types ms).map (type path)).map .type := by
  induction ms using List.reverseRecOn with
  | nil => rfl
  | append_singleton ms m ih =>
    obtain ⟨parts, name⟩ := m
    rw [tree_concat, ih]
    cases parts with
    | nil =>
      have hspace : space path (ms ++ [([], name)]) = space path ms := by
        funext part
        rw [space, inside_concat_nil]
        rfl
      rw [spaces_concat_nil, types_concat_nil, hspace]
      apply addType_nil
      intro m hm
      obtain ⟨part, -, rfl⟩ := List.mem_map.mp hm
      exact ⟨_, _, _, rfl⟩
    | cons part parts =>
      have hnew : part ∉ spaces ms → tree (extendPath path part) (inside part ms) = [] := by
        intro hpart
        rw [inside_eq_nil hpart]
        rfl
      -- only the namespace that the mention leads through is built from more mentions
      have hspace (other : String) : space path (ms ++ [(part :: parts, name)]) other =
          .space other path
            (if other = part then
              addType (extendPath path part) parts name (tree (extendPath path other) (inside other ms))
            else tree (extendPath path other) (inside other ms)) := by
        rw [space]
        by_cases ho : other = part
        · rw [if_pos ho, ho, inside_concat_self, tree_concat]
        · rw [if_neg ho, inside_concat_of_ne _ _ _ _ (Ne.symm ho)]
      rw [addType, spaces_concat_cons, types_concat_cons, funext hspace]
      exact inNamespace_map (nodup_spaces ms) hnew _

theorem space_mem_tree {path part parent : String} {members : List Member} {ms : List Mention} :
    .space part parent members ∈ tree path ms ↔
      part ∈ spaces ms ∧ .space part parent members = space path ms part := by
  rw [tree_eq, List.mem_append]
  constructor
  · intro h
    rcases h with h | h
    · obtain ⟨other, hother, he⟩ := List.mem_map.mp h
      obtain rfl : other = part := (Member.space.inj he).1
      exact ⟨hother, he.symm⟩
    · obtain ⟨t, -, he⟩ := List.mem_map.mp h
      cases he
  · intro h
    rw [h.2]
    exact Or.inl (List.mem_map_of_mem h.1)

theorem type_mem_tree {path : String} {t : NamedType} {ms : List Mention} :
    .type t ∈ tree path ms ↔ ∃ name ∈ types ms, t = type path name := by
  rw [tree_eq, List.mem_append]
  constructor
  · intro h
    rcases h with h | h
    · obtain ⟨other, -, he⟩ := List.mem_map.mp h
      cases he
    · obtain ⟨t', ht, he⟩ := List.mem_map.mp h
      obtain ⟨name, hname, rfl⟩ := List.mem_map.mp ht
      exact ⟨name, hname, (Member.type.inj he).symm⟩
  · intro h
    obtain ⟨name, hname, rfl⟩ := h
    exact Or.inr (List.mem_map_of_mem (List.mem_map_of_mem hname))

theorem nodup_tree (path : String) (ms : List Mention) : (tree path ms).Nodup := by
  have hspaces : ((spaces ms).map (space path ms)).Nodup := by
    apply (nodup_spaces ms).map
    exact fun part part' he => (Member.space.inj he).1
  have htypes : (((types ms).map (type path)).map Member.type).Nodup := by
    apply List.Nodup.map (fun t t' he => Member.type.inj he)
    apply (nodup_types ms).map
    exact fun name name' he => (NamedType.mk.inj he).1
  rw [tree_eq]
  apply hspaces.append htypes
  intro m hm hm'
  obtain ⟨part, -, rfl⟩ := List.mem_map.mp hm
  obtain ⟨t, -, he⟩ := List.mem_map.mp hm'
  cases he

end Mention

end TierHost
