import TierHost.Host.Session
import TierHost.Lint.Analyzer

/-!
The rule that an event's add accessor comes before its remove accessor, and the fix that swaps the
two.
-/

namespace TierHost.EventOrder

def ruleId : String := "SA1213"

/-- The rule, which hosts have to switch on. -/
def descriptor : Descriptor where
  id := ruleId
  title := "Event accessors must follow order"
  format := "Event accessors must follow order."
  category := "StyleCop.CSharp.OrderingRules"
  severity := .warning
  enabled := false
  description := "An add accessor appears after a remove accessor within an event."
  helpLink := "http://www.stylecop.com/docs/SA1213.html"

/-- The accessors of a list that holds a remove accessor and then an add accessor, nothing else. -/
def swapped? (list : Node) : Option (Node × Node) :=
  match list.children with
  | [first, second] =>
    if first.kind = .removeAccessor && second.kind = .addAccessor then some (first, second)
    else none
  | _ => none

/-- The accessor list of an event in the wrong order, with its accessors; a list that was not
written does not count. -/
def misordered? (event : Node) : Option (Node × Node × Node) := do
  let list ← event.childOfKind? .accessorList
  if list.missing then none
  let (remove, add) ← swapped? list
  return (list, remove, add)

/-- Reports an event in the wrong order at its remove accessor. -/
def action : Action := fun _ event =>
  match misordered? event with
  | some (_, remove, _) => [.report ⟨descriptor, remove.location, [], none, ""⟩]
  | none => []

def analyzer : Analyzer where
  name := "SA1213EventAccessorsMustFollowOrder"
  supported := [descriptor]
  start := .ok [(.eventDeclaration, [action])]

def canFix (d : Diagnostic) : Bool := d.id = ruleId

/-- The accessors in the wrong order whose remove accessor is the given node. -/
def listOf? (remove : Node) (node : Node) : Option (Node × Node × Node) := do
  if node.kind ≠ .eventDeclaration then none
  let (list, first, second) ← misordered? node
  if first.id = remove.id then some (list, first, second) else none

/-- The document with the two accessors swapped whose remove accessor, the first in the document at
the diagnostic's location, a diagnostic is about. -/
def fixed? (doc : Document) (remove : Node) : Option Document := do
  let (list, first, second) ← doc.root.walk.findSome? (listOf? remove)
  let fresh := doc.root.largestId + 1
  let swapped := list.withChildren fresh [second, first]
  return { doc with root := doc.root.replace list.id swapped }

/-- Looks the diagnostic's remove accessor up and swaps it; a location without one is logged, and one that
cannot be written leaves its place in the log empty. -/
def fix {ε : Type} (doc : Document) (d : Diagnostic) : Work ε (Option Document) := do
  match doc.root.find? d.location (some .removeAccessor) with
  | none =>
    Work.record (.nothingToFix (d.location.text?.getD ""))
    return none
  | some remove => return fixed? doc remove

/-- Applies the fix if it is meant for the diagnostic; `none` leaves the document as it is. -/
def applyFix {ε : Type} (doc : Document) (d : Diagnostic) : Work ε (Option Document) :=
  if canFix d then fix doc d else return none

end TierHost.EventOrder
