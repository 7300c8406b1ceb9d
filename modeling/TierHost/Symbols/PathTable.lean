import TierHost.Listing
import TierHost.Symbols.Builder

/-!
Namespace trees by way of two tables with dotted paths for keys: one lists the names of the inner
namespaces of every namespace, the other one the names of its types. The tables are filled name by
name, and a walk from the empty path reads the tree off them.
-/

namespace TierHost

/-- The inner namespaces and the types of every namespace, in the order of their first mention. -/
structure PathTable where
  spaces : Listing String (List String)
  types : Listing String (List String)

namespace PathTable

/-- At first there is the global namespace only. -/
def start : PathTable := ⟨[("", [])], [("", [])]⟩

/-- The names that a table has under a path. -/
def listed (table : Listing String (List String)) (path : String) : List String :=
  (table.get? path).getD []

/-- Adds a name behind the others, unless it is one of them. -/
def addNew (name : String) (names : List String) : List String :=
  if names.contains name then names else names ++ [name]

def note (path name : String) (table : Listing String (List String)) :
    Listing String (List String) :=
  table.put path (addNew name (listed table path))

/-- Puts a path in without names, unless it is there. -/
def ensure (path : String) (table : Listing String (List String)) : Listing String (List String) :=
  match table.get? path with
  | some _ => table
  | none => table.put path []

/-- Notes an inner namespace, which gets a place in both tables. -/
def enter (t : PathTable) (path part : String) : PathTable where
  spaces := ensure (extendPath path part) (note path part t.spaces)
  types := ensure (extendPath path part) t.types

/-- Notes a type below the namespaces that lead to it. -/
def add (t : PathTable) (path : String) : List String → String → PathTable
  | [], simple => { t with types := note path simple t.types }
  | part :: parts, simple => (t.enter path part).add (extendPath path part) parts simple

def addName (t : PathTable) (name : String) : Except TreeError PathTable :=
  let (space, simple) := splitQualified name
  if simple.isEmpty then .error (.notTypeName name) else .ok (t.add "" (segments space) simple)

/-- The tables of the named types. -/
def ofNames (names : List String) : Except TreeError PathTable := names.foldlM addName start

/-- Reads the namespace at a path off the tables. Nothing in the tables bounds the recursion, so it
is cut off at a depth, and then there is no result. -/
def freeze (t : PathTable) : Nat → String → String → String → Option Namespace
  | 0, _, _, _ => none
  | depth + 1, path, name, parent => do
    let inner ← (listed t.spaces path).mapM fun part =>
      t.freeze depth (extendPath path part) part path
    let types := (listed t.types path).map fun simple => Member.type ⟨simple, path, "", []⟩
    return ⟨name, parent, inner.map Namespace.toMember ++ types⟩

end PathTable

end TierHost
