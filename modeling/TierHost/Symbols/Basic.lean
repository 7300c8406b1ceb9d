/-!
The exported symbols of compiled assemblies: namespaces hold namespaces and types, types hold nested
types, and every symbol records the dotted path of what encloses it.
-/

namespace TierHost

/-- A named type with its nested types; the two paths name the enclosing namespaces and types. -/
structure NamedType where
  name : String
  namespacePath : String
  outerPath : String
  nested : List NamedType
  deriving Inhabited, Repr

/-- A member of a namespace. -/
inductive Member where
  | space (name parent : String) (members : List Member)
  | type (t : NamedType)
  deriving Inhabited, Repr

/-- A namespace, its parent's path and its members in declaration order. -/
structure Namespace where
  name : String
  parent : String
  members : List Member
  deriving Repr

/-- An assembly and its global namespace. -/
structure Assembly where
  name : String
  root : Namespace
  deriving Repr

/-- A compilation, which may not have a name yet, and the assemblies it references. -/
structure Compilation where
  name : Option String
  references : List Assembly
  deriving Repr

/-- Any symbol. -/
inductive Symbol where
  | assembly (a : Assembly)
  | space (n : Namespace)
  | type (t : NamedType)
  deriving Repr

/-- A path that goes on with a name; the empty path is the global one. -/
def extendPath (path name : String) : String := if path.isEmpty then name else path ++ "." ++ name

/-- What marks a name as starting from the global namespace. -/
def globalMark : String := "global::"

mutual

def NamedType.decEq : (s t : NamedType) → Decidable (s = t)
  | ⟨n, p, o, ns⟩, ⟨n', p', o', ns'⟩ =>
    match NamedType.decEqList ns ns' with
    | .isTrue h =>
      if hn : n = n' ∧ p = p' ∧ o = o' then .isTrue (by simp [hn, h])
      else .isFalse (by
        intro e; simp only [NamedType.mk.injEq] at e; exact hn ⟨e.1, e.2.1, e.2.2.1⟩)
    | .isFalse h => .isFalse (by intro e; simp only [NamedType.mk.injEq] at e; exact h e.2.2.2)

def NamedType.decEqList : (ss ts : List NamedType) → Decidable (ss = ts)
  | [], [] => .isTrue rfl
  | [], _ :: _ => .isFalse (by simp)
  | _ :: _, [] => .isFalse (by simp)
  | s :: ss, t :: ts =>
    match NamedType.decEq s t, NamedType.decEqList ss ts with
    | .isTrue h, .isTrue hs => .isTrue (by rw [h, hs])
    | .isFalse h, _ => .isFalse (by intro e; exact h (List.cons.inj e).1)
    | _, .isFalse h => .isFalse (by intro e; exact h (List.cons.inj e).2)

end

instance : DecidableEq NamedType := NamedType.decEq

mutual

def Member.decEq : (m n : Member) → Decidable (m = n)
  | .type s, .type t =>
    if h : s = t then .isTrue (by rw [h]) else .isFalse (by intro e; exact h (Member.type.inj e))
  | .type _, .space _ _ _ => .isFalse (by simp)
  | .space _ _ _, .type _ => .isFalse (by simp)
  | .space n p ms, .space n' p' ms' =>
    match Member.decEqList ms ms' with
    | .isTrue h =>
      if hn : n = n' ∧ p = p' then .isTrue (by simp [hn, h])
      else .isFalse (by intro e; simp only [Member.space.injEq] at e; exact hn ⟨e.1, e.2.1⟩)
    | .isFalse h => .isFalse (by intro e; simp only [Member.space.injEq] at e; exact h e.2.2)

def Member.decEqList : (ms ns : List Member) → Decidable (ms = ns)
  | [], [] => .isTrue rfl
  | [], _ :: _ => .isFalse (by simp)
  | _ :: _, [] => .isFalse (by simp)
  | m :: ms, n :: ns =>
    match Member.decEq m n, Member.decEqList ms ns with
    | .isTrue h, .isTrue hs => .isTrue (by rw [h, hs])
    | .isFalse h, _ => .isFalse (by intro e; exact h (List.cons.inj e).1)
    | _, .isFalse h => .isFalse (by intro e; exact h (List.cons.inj e).2)

end

instance : DecidableEq Member := Member.decEq

deriving instance DecidableEq for Namespace, Assembly, Compilation, Symbol

namespace NamedType

/-- The dotted name of a type, without the enclosing parts that are empty. -/
def qualifiedName (t : NamedType) : String :=
  ".".intercalate ([t.namespacePath, t.outerPath, t.name].filter fun part => !part.isEmpty)

/-- The dotted name of a type, marked as starting from the global namespace. -/
def displayName (t : NamedType) : String := globalMark ++ t.qualifiedName

end NamedType

namespace Namespace

/-- Whether this is the global namespace, which alone has no name. -/
def isGlobal (n : Namespace) : Bool := n.name.isEmpty

def qualifiedName (n : Namespace) : String :=
  if n.parent.isEmpty then n.name else n.parent ++ "." ++ n.name

def toMember (n : Namespace) : Member := .space n.name n.parent n.members

def namespaceMembers (n : Namespace) : List Namespace :=
  n.members.filterMap fun
    | .space name parent members => some ⟨name, parent, members⟩
    | .type _ => none

def typeMembers (n : Namespace) : List NamedType :=
  n.members.filterMap fun
    | .space _ _ _ => none
    | .type t => some t

end Namespace

def Namespace.empty : Namespace := ⟨"", "", []⟩

def Member.toSymbol : Member → Symbol
  | .space name parent members => .space ⟨name, parent, members⟩
  | .type t => .type t

/-- The first referenced assembly with this name. -/
def Compilation.reference? (c : Compilation) (name : String) : Option Assembly :=
  c.references.find? fun a => a.name = name

/-- The position of the first referenced assembly with this name. -/
def Compilation.referenceIndex? (c : Compilation) (name : String) : Option Nat :=
  c.references.findIdx? fun a => a.name = name

end TierHost
