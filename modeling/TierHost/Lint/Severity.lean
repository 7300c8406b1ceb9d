import TierHost.Lint.Diagnostic
import TierHost.Listing
import TierHost.Text.Blank
import TierHost.Text.LowerCase

/-!
The severity that a rule has under a host's options.
-/

namespace TierHost

/-- Severity options by rule identifier. -/
abbrev SeverityOptions := Listing String String

/-- An option that names no severity. -/
structure UnknownSeverity where
  value : String
  id : String
  deriving DecidableEq, Repr

def UnknownSeverity.message (e : UnknownSeverity) : String :=
  "unknown severity option " ++ Text.literal e.value ++ " for " ++ e.id

/-- The severities that options name; `none` switches a rule off. -/
def Severity.options : List (String × Option Severity) := [
  ("none", none), ("suppress", none),
  ("hidden", some .hidden), ("silent", some .hidden),
  ("info", some .info), ("suggestion", some .info),
  ("warning", some .warning), ("warn", some .warning),
  ("error", some .error)]

/-- The severity of a rule: what its option names, in any case and with any margin, or the rule's
own if it is enabled. `none` means that the rule is off. -/
def Descriptor.severityUnder (d : Descriptor) (options : SeverityOptions) :
    Except UnknownSeverity (Option Severity) :=
  let value := Text.lower (Text.trim ((options.get? d.id).getD "default"))
  if value = "default" then .ok (if d.enabled then some d.severity else none)
  else match Severity.options.find? fun e => e.1 = value with
    | some (_, severity) => .ok severity
    | none => .error ⟨value, d.id⟩

end TierHost
