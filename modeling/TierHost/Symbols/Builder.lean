import TierHost.Symbols.Basic
import TierHost.Text.Occurrence
import TierHost.Text.Quoted

/-!
Building a namespace tree from dotted type names. In each namespace the inner namespaces come first
and the types after them, both in the order of their first mention.
-/

namespace TierHost

open Text

/-- Why names do not make a tree. -/
inductive TreeError where
  | notTypeName (name : String)
  | endless
  deriving DecidableEq, Repr

def TreeError.message : TreeError → String
  | .notTypeName name => "not a type name: " ++ literal name
  | .endless => ""

/-- A dotted name's namespace and simple name, after one leading mark of the global namespace. -/
def splitQualified (name : String) : String × String :=
  let body := dropLeading globalMark.toList name.toList
  match splitAtLast '.' body with
  | some (space, simple) => (String.ofList space, String.ofList simple)
  | none => ("", String.ofList body)

/-- The segments of a namespace path; the global path has none. -/
def segments (path : String) : List String :=
  if path.isEmpty then [] else (pieces '.' path.toList).map String.ofList

/-- Changes the inner namespace with this name, which is added behind the others if it is missing.
-/
def inNamespace (path name : String) (change : List Member → List Member) :
    List Member → List Member
  | .space other parent members :: rest =>
    if other = name then .space other parent (change members) :: rest
    else .space other parent members :: inNamespace path name change rest
  | rest => .space name path (change []) :: rest

def Member.isTypeNamed (name : String) : Member → Bool
  | .type t => t.name = name
  | .space _ _ _ => false

/-- Adds a type below the namespaces that lead to it, unless it is there. -/
def addType (path : String) : List String → String → List Member → List Member
  | [], name, members =>
    if members.any (Member.isTypeNamed name) then members
    else members ++ [.type ⟨name, path, "", []⟩]
  | part :: parts, name, members =>
    inNamespace path part (addType (extendPath path part) parts name) members

/-- Builds the global namespace of the named types. A path whose first segment is empty makes the
global namespace its own child, so that the tree has no end. -/
def buildTree (names : List String) : Except TreeError Namespace :=
  match names.find? fun name => (splitQualified name).2.isEmpty with
  | some name => .error (.notTypeName name)
  | none =>
    let entries := names.map fun name =>
      let (space, simple) := splitQualified name
      (segments space, simple)
    if entries.any fun entry => entry.1.head? = some "" then .error .endless
    else
      let members := entries.foldl (fun members entry => addType "" entry.1 entry.2 members) []
      .ok ⟨"", "", members⟩

def buildAssembly (name : String) (types : List String) : Except TreeError Assembly :=
  (buildTree types).map fun root => ⟨name, root⟩

end TierHost
