import TierHost.Text.Quoted

/-!
What running work writes to the log, and the line of each entry.
-/

namespace TierHost

/-- The weight of a log entry. -/
inductive Level where
  | debug
  | info
  | warning
  deriving DecidableEq, Repr

def Level.name : Level → String
  | .debug => "DEBUG"
  | .info => "INFO"
  | .warning => "WARNING"

def Level.ofVerbosity (n : Int) : Level :=
  if n = 1 then .info else if 2 ≤ n then .debug else .warning

/-- An entry of the log. -/
inductive Event where
  | configProblem (text : String)
  | notVersioned (assembly : String)
  | belowBaseline (assembly : String) (tier : Int)
  | resolved (assembly previous : String)
  | notReferenced (assembly previous : String)
  | skippedGlobalType (name : String)
  | collected (count : Nat) (assembly : String)
  | cacheHit (assembly : String)
  | generated (count : Nat) (assembly : String)
  | unknownAnalyzer (name : String)
  | skippedAnalyzer (name : String)
  | failedAnalyzer (name file message : String)
  | nothingToFix (location : String)
  | missingExport (text : String)
  | skippedModule (name reason : String)
  deriving DecidableEq, Repr

namespace Event

def level : Event → Level
  | .configProblem _ | .unknownAnalyzer _ | .failedAnalyzer _ _ _ | .missingExport _ => .warning
  | .generated _ _ => .info
  | _ => .debug

def logger : Event → String
  | .configProblem _ => "testmirror.config"
  | .notVersioned _ | .belowBaseline _ _ | .resolved _ _ => "testmirror.version_chain"
  | .notReferenced _ _ | .skippedGlobalType _ | .collected _ _ => "testmirror.collector"
  | .cacheHit _ | .generated _ _ => "testmirror.pipeline"
  | .unknownAnalyzer _ | .skippedAnalyzer _ | .failedAnalyzer _ _ _ => "analyzer_shims.checkers"
  | .nothingToFix _ => "analyzer_shims.ordering_rules"
  | .missingExport _ | .skippedModule _ _ => "analyzer_shims"

def message : Event → String
  | .configProblem text => "GeneratorConfig: " ++ text
  | .notVersioned assembly => Text.literal assembly ++ " is not a versioned test assembly"
  | .belowBaseline assembly tier =>
    Text.literal assembly ++ " is below baseline tier " ++ toString tier
  | .resolved assembly previous => "Resolved " ++ assembly ++ " -> previous " ++ previous
  | .notReferenced assembly previous =>
    assembly ++ " does not reference " ++ previous ++ "; nothing to mirror"
  | .skippedGlobalType name => "Skipping " ++ name ++ ": declared in the global namespace"
  | .collected count assembly =>
    "Collected " ++ toString count ++ " candidate(s) from " ++ assembly
  | .cacheHit assembly => "Cache hit for " ++ assembly
  | .generated count assembly =>
    "Generated " ++ toString count ++ " mirrored test class(es) for " ++ assembly
  | .unknownAnalyzer name => "Unknown analyzer requested: " ++ name
  | .skippedAnalyzer name => "Skipping " ++ name ++ ": all diagnostics are off"
  | .failedAnalyzer name file message =>
    "Analyzer " ++ name ++ " failed on " ++ file ++ ": " ++ message
  | .nothingToFix location => "SA1213 fix: no remove accessor at " ++ location
  | .missingExport text => text
  | .skippedModule name reason => "Skipped optional module " ++ name ++ ": " ++ reason

def line (e : Event) : String := e.level.name ++ " " ++ e.logger ++ ": " ++ e.message

end Event

end TierHost
