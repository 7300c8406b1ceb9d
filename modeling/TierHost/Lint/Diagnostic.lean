import TierHost.Code.Location
import TierHost.Template.Message
import TierHost.Text.JsonText

/-!
Diagnostics: what a rule reports, where, and how severe it is; as a record, and as a line in the
form of a compiler message.
-/

namespace TierHost

/-- Severities from the least to the greatest. -/
inductive Severity where
  | hidden
  | info
  | warning
  | error
  deriving DecidableEq, Repr

namespace Severity

def all : List Severity := [.hidden, .info, .warning, .error]

def name : Severity → String
  | .hidden => "hidden"
  | .info => "info"
  | .warning => "warning"
  | .error => "error"

def ofName? (s : String) : Option Severity := all.find? fun v => v.name = s

def unknown (s : String) : String := Text.literal s ++ " is not a valid DiagnosticSeverity"

end Severity

/-- The description of a rule. -/
structure Descriptor where
  id : String
  title : String
  format : String
  category : String
  severity : Severity
  enabled : Bool
  description : String
  helpLink : String
  deriving DecidableEq, Repr

/-- A finding: a rule, a place, the arguments of the message, a severity if it differs from the
rule's own, and the analyzer that reported it. -/
structure Diagnostic where
  descriptor : Descriptor
  location : Location
  args : List Value
  severity : Option Severity
  analyzer : String
  deriving DecidableEq, Repr

namespace Diagnostic

def id (d : Diagnostic) : String := d.descriptor.id

def effectiveSeverity (d : Diagnostic) : Severity := d.severity.getD d.descriptor.severity

/-- The message; a format without arguments is taken as it stands. -/
def message (d : Diagnostic) : Except Template.Error String :=
  if d.args.isEmpty then .ok d.descriptor.format else Template.fill d.descriptor.format d.args

def record (d : Diagnostic) : Except Template.Error (List (String × Text.JsonField)) := do
  return [
    ("id", .text d.id),
    ("message", .text (← d.message)),
    ("severity", .text d.effectiveSeverity.name),
    ("category", .text d.descriptor.category),
    ("file", .text d.location.file),
    ("line", .number d.location.line),
    ("column", .number d.location.column),
    ("analyzer", .text d.analyzer)]

def json (d : Diagnostic) : Except Template.Error String := do
  Template.written (Text.jsonObject? (← d.record))

def line (d : Diagnostic) : Except Template.Error String := do
  let place ← Template.written d.location.text?
  return place ++ ": " ++ d.effectiveSeverity.name ++ ": " ++ (← d.message) ++ " [" ++ d.id ++ "]"

end Diagnostic

end TierHost
