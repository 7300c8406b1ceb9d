import TierHost.Code.Node
import TierHost.Lint.Diagnostic
import TierHost.Listing
import TierHost.Text.Order

/-!
Analyzers. An analyzer supports some rules and registers actions for kinds of syntax node; an action
answers a node with things to do.
-/

namespace TierHost

/-- What an analyzer may raise: a cancellation, or a failure of some kind. Failures are exceptions in the
usual sense. An exit or an interrupt, which no host answers and which ends its program, is none of them and
is left out. -/
inductive Raised where
  | canceled (message : String)
  | failure (kind message : String)
  deriving DecidableEq, Repr

/-- Something that an action does. -/
inductive Act where
  | report (d : Diagnostic)
  | raise (r : Raised)
  | cancel
  deriving DecidableEq, Repr

abbrev Action := Document → Node → List Act

/-- Actions by the kind of node they are called for, each kind in order of registration. -/
abbrev Actions (α : Type) := Listing Kind (List α)

namespace Actions

variable {α : Type}

def of (a : Actions α) (k : Kind) : List α := (a.get? k).getD []

def kinds (a : Actions α) : List String := Text.sorted (a.keys.map Kind.name)

/-- What registering for no kind at all is answered with. -/
def noKinds : String := "register_syntax_node_action requires at least one SyntaxKind"

/-- Registers an action for kinds, of which there must be some. -/
def register (a : Actions α) (action : α) (kinds : List Kind) : Except String (Actions α) :=
  if kinds.isEmpty then .error noKinds
  else .ok (kinds.foldl (fun a k => a.put k (a.of k ++ [action])) a)

end Actions

/-- A rule set: its name, the rules it supports, and the actions that it registers when it starts.
-/
structure Analyzer where
  name : String
  supported : List Descriptor
  start : Except Raised (Actions Action)

namespace Analyzer

/-- The identifiers of the supported rules, in increasing order. -/
def ids (a : Analyzer) : List String := Text.sortedDistinct (a.supported.map (·.id))

def describe (a : Analyzer) : String :=
  "<" ++ a.name ++ " [" ++ ", ".intercalate (a.ids.map Text.literal) ++ "]>"

end Analyzer

end TierHost
