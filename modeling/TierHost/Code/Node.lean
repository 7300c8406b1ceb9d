import TierHost.Code.Location
import TierHost.Text.Quoted

/-!
Syntax trees. A node has an identity of its own beside its contents, so that a tree can be changed
at one node even where others look the same; a node that is rebuilt gets a new identity.
-/

namespace TierHost

/-- The kinds of syntax node. -/
inductive Kind where
  | compilationUnit
  | namespaceDeclaration
  | classDeclaration
  | methodDeclaration
  | propertyDeclaration
  | eventDeclaration
  | accessorList
  | getAccessor
  | setAccessor
  | addAccessor
  | removeAccessor
  | block
  deriving DecidableEq, Repr

namespace Kind

def all : List Kind := [
  .compilationUnit, .namespaceDeclaration, .classDeclaration, .methodDeclaration,
  .propertyDeclaration, .eventDeclaration, .accessorList, .getAccessor, .setAccessor, .addAccessor,
  .removeAccessor, .block]

def name : Kind → String
  | .compilationUnit => "CompilationUnit"
  | .namespaceDeclaration => "NamespaceDeclaration"
  | .classDeclaration => "ClassDeclaration"
  | .methodDeclaration => "MethodDeclaration"
  | .propertyDeclaration => "PropertyDeclaration"
  | .eventDeclaration => "EventDeclaration"
  | .accessorList => "AccessorList"
  | .getAccessor => "GetAccessorDeclaration"
  | .setAccessor => "SetAccessorDeclaration"
  | .addAccessor => "AddAccessorDeclaration"
  | .removeAccessor => "RemoveAccessorDeclaration"
  | .block => "Block"

def ofName? (s : String) : Option Kind := all.find? fun k => k.name = s

def unknown (s : String) : String := Text.literal s ++ " is not a valid SyntaxKind"

end Kind

/-- A syntax node; a missing one was added by a parser that recovered from an error. -/
structure Node where
  id : Nat
  kind : Kind
  location : Location
  name : String
  missing : Bool
  children : List Node
  deriving Repr

namespace Node

mutual

def size : Node → Nat
  | ⟨_, _, _, _, _, children⟩ => 1 + sizeAll children

def sizeAll : List Node → Nat
  | [] => 0
  | n :: ns => n.size + sizeAll ns

end

theorem sizeAll_append (ms ns : List Node) : sizeAll (ms ++ ns) = sizeAll ms + sizeAll ns := by
  induction ms with
  | nil => simp [sizeAll]
  | cons m ms ih => simp [sizeAll, ih, Nat.add_assoc]

theorem size_eq (n : Node) : n.size = 1 + sizeAll n.children := by cases n; rfl

/-- The nodes of a work list of trees: the first root, then its children before the other trees. -/
def walkFrom : List Node → List Node
  | [] => []
  | n :: rest => n :: walkFrom (n.children ++ rest)
termination_by ns => sizeAll ns
decreasing_by simp [sizeAll_append, sizeAll, size_eq n]

theorem walkFrom_append (ms ns : List Node) : walkFrom (ms ++ ns) = walkFrom ms ++ walkFrom ns := by
  fun_induction walkFrom ms with
  | case1 => rfl
  | case2 n rest ih =>
    rw [List.cons_append, walkFrom, ← List.append_assoc, ih, List.cons_append]

def walk (n : Node) : List Node := walkFrom [n]

def childOfKind? (n : Node) (k : Kind) : Option Node := n.children.find? fun c => c.kind = k

/-- The first node at a location, of one kind if it is given. -/
def find? (n : Node) (location : Location) (kind : Option Kind) : Option Node :=
  n.walk.find? fun m => m.location = location && kind.all (m.kind = ·)

mutual

/-- The tree with the first node of identity `old` replaced, or `none` if that changes nothing. The
ancestors of the replaced node are rebuilt with the identities from `fresh` on. -/
def replaceFrom (old : Nat) (new : Node) (fresh : Nat) : Node → Option Node
  | ⟨id, kind, location, name, missing, children⟩ =>
    if id = old then if new.id = old then none else some new
    else (replaceAmong old new (fresh + 1) children).map fun children =>
      ⟨fresh, kind, location, name, missing, children⟩

/-- The trees with the node replaced in the first of them that this changes. -/
def replaceAmong (old : Nat) (new : Node) (fresh : Nat) : List Node → Option (List Node)
  | [] => none
  | n :: ns =>
    match replaceFrom old new fresh n with
    | some n => some (n :: ns)
    | none => (replaceAmong old new fresh ns).map (n :: ·)

end

def withChildren (n : Node) (fresh : Nat) (children : List Node) : Node :=
  { n with id := fresh, children }

def largestId (n : Node) : Nat := (n.walk.map (·.id)).foldl max 0

/-- The tree with the first node of identity `old` replaced, or `none` if that changes nothing. -/
def replace? (root : Node) (old : Nat) (new : Node) : Option Node :=
  replaceFrom old new (max root.largestId new.largestId + 1) root

/-- The tree with the first node of identity `old` replaced. -/
def replace (root : Node) (old : Nat) (new : Node) : Node := (root.replace? old new).getD root

mutual

/-- The tree with the identities from `next` on given out in pre-order, and the next one free. -/
def number (next : Nat) : Node → Node × Nat
  | ⟨_, kind, location, name, missing, children⟩ =>
    let (children, after) := numberAll (next + 1) children
    (⟨next, kind, location, name, missing, children⟩, after)

def numberAll (next : Nat) : List Node → List Node × Nat
  | [] => ([], next)
  | n :: ns =>
    let (n, next) := number next n
    let (ns, next) := numberAll next ns
    (n :: ns, next)

end

mutual

/-- The path of child indexes to the first node with an identity. -/
def pathTo? (id : Nat) : Node → Option (List Nat)
  | ⟨own, _, _, _, _, children⟩ => if own = id then some [] else pathAmong? id 0 children

/-- The path into the first of several trees that holds an identity; `i` counts them. -/
def pathAmong? (id i : Nat) : List Node → Option (List Nat)
  | [] => none
  | n :: ns =>
    match pathTo? id n with
    | some path => some (i :: path)
    | none => pathAmong? id (i + 1) ns

end

end Node

/-- A source file and its syntax tree. -/
structure Document where
  file : String
  root : Node
  deriving Repr

end TierHost
