import TierHost.Symbols.Basic
import TierHost.Text.Occurrence

/-!
The test classes that a tier exports: top-level types in named namespaces whose simple name carries
the tier's token, or at the root the test class suffix.
-/

namespace TierHost

/-- The naming rule of the tier that is searched. -/
structure Naming where
  token : String
  suffix : String
  deriving DecidableEq, Repr

namespace Naming

def accepts (n : Naming) (name : String) : Bool :=
  if n.token.isEmpty then n.suffix.toList.isSuffixOf name.toList
  else Text.occursIn n.token.toList name.toList

/-- A step of the search. -/
inductive Step where
  | enter
  | skip (name : String)
  | take (name : String)
  deriving DecidableEq, Repr

/-- The step for a type that is a member of a namespace. -/
def typeStep (n : Naming) (global : Bool) (t : NamedType) : List Step :=
  -- a type outside of all namespaces cannot be derived from by a qualified name
  if global then [.skip t.name]
  else if n.accepts t.name then [.take t.displayName]
  else []

mutual

/-- The steps for a member of a namespace; `global` tells whether that one has no name. -/
def memberSteps (n : Naming) (global : Bool) : Member → List Step
  | .space name _ members => .enter :: memberStepsList n name.isEmpty members
  | .type t => n.typeStep global t

def memberStepsList (n : Naming) (global : Bool) : List Member → List Step
  | [] => []
  | m :: ms => memberSteps n global m ++ memberStepsList n global ms

end

/-- The steps of a search that starts at a symbol. -/
def steps (n : Naming) : Symbol → List Step
  | .assembly a => memberSteps n false a.root.toMember
  | .space s => memberSteps n false s.toMember
  | .type t => n.typeStep false t

def Step.taken? : Step → Option String
  | .take name => some name
  | _ => none

/-- The candidates of a symbol in the order of the search, repetitions included. -/
def found (n : Naming) (s : Symbol) : List String := (n.steps s).filterMap Step.taken?

end Naming

end TierHost
