import TierHost.Host.Session
import TierHost.Lint.Registry
import TierHost.Lint.Results
import TierHost.Lint.Severity
import TierHost.Lint.Suppression

/-!
Running analyzers over documents. An analyzer that fails is answered with a single diagnostic in
place of everything that it reported; a cancellation ends the whole run. An exit or an interrupt would
end it as well, and is not modelled.
-/

namespace TierHost

/-- Why a run of analyzers ends without results. -/
inductive LintError where
  | canceled (message : String)
  | unknownSeverity (e : UnknownSeverity)
  deriving DecidableEq, Repr

def LintError.message : LintError → String
  | .canceled message => message
  | .unknownSeverity e => e.message

def Descriptor.analyzerFailed : Descriptor where
  id := "AD0001"
  title := "Analyzer failed"
  format := "Analyzer '\x7b0\x7d' threw an exception of type '\x7b1\x7d' with message '\x7b2\x7d'."
  category := "Compiler"
  severity := .warning
  enabled := true
  description := ""
  helpLink := ""

/-- What a host runs analyzers with. -/
structure Linter where
  registry : Registry
  suppressions : Suppressions
  options : SeverityOptions

namespace Linter

open Work

/-- The severity of each supported rule; of two rules with one identifier the later one counts. -/
abbrev Severities := Listing String (Option Severity)

/-- The severities of an analyzer's rules under the options. -/
def severities (options : SeverityOptions) (a : Analyzer) : Except UnknownSeverity Severities :=
  a.supported.foldlM (fun l d => do return l.put d.id (← d.severityUnder options)) []

def unsupported (id : String) : Raised :=
  .failure "ValueError"
    ("Reported diagnostic with ID '" ++ id ++ "' is not supported by the analyzer.")

/-- A run of acts raises something, or yields the reports so far. -/
abbrev Acting := ExceptT Raised (StateM (Session × List Diagnostic))

def pollActing : Acting Unit := do
  let (session, reports) ← get
  match (Work.poll Token.canceledMessage).runIn session with
  | (.ok _, session) => set (session, reports)
  | (.error message, session) =>
    set (session, reports)
    throw (.canceled message)

/-- Takes a report over with the severity in force, unless its rule is off. -/
def report (name : String) (sev : Severities) (d : Diagnostic) : Acting Unit := do
  match sev.get? d.id with
  | none => throw (unsupported d.id)
  | some none => return
  | some (some severity) =>
    let d := { d with severity := some severity, analyzer := name }
    modify fun (session, reports) => (session, reports ++ [d])

/-- Signals the token; there is none that could be signalled if the host gave none. -/
def cancelActing : Acting Unit := do
  let (session, reports) ← get
  match (session.token.getD Token.none).cancel? with
  | some token => set ({ session with token := some token }, reports)
  | none => throw (.failure "ValueError" Token.cancelError)

def perform (name : String) (sev : Severities) : Act → Acting Unit
  | .report d => report name sev d
  | .raise r => throw r
  | .cancel => cancelActing

def visitNode (name : String) (sev : Severities) (actions : Actions Action) (doc : Document)
    (node : Node) : Acting Unit := do
  pollActing
  (actions.of node.kind).forM fun action => (action doc node).forM (perform name sev)

/-- Starts an analyzer and calls its actions for all nodes of a document. -/
def visitDocument (a : Analyzer) (sev : Severities) (doc : Document) : Acting Unit := do
  match a.start with
  | .error r => throw r
  | .ok actions => doc.root.walk.forM (visitNode a.name sev actions doc)

def failureDiagnostic (name file kind message : String) : Diagnostic :=
  ⟨.analyzerFailed, ⟨file, 0, 0⟩, [.text name, .text kind, .text message], none, name⟩

/-- The diagnostics of one analyzer in one document, before suppression. A cancellation is passed on, and a
failure, of whatever kind, is answered; nothing else can be raised (see `Raised`). -/
def runOne (a : Analyzer) (sev : Severities) (doc : Document) :
    Work LintError (List Diagnostic) := do
  let (outcome, session, reports) := (visitDocument a sev doc).run.run (← get, [])
  set session
  match outcome with
  | .ok _ => return reports
  | .error (.canceled message) => throw (.canceled message)
  | .error (.failure kind message) =>
    record (.failedAnalyzer a.name doc.file message)
    return [failureDiagnostic a.name doc.file kind message]

/-- The analyzers of a selection; without one, all that are switched on. -/
def select (l : Linter) : Option (List String) → Work LintError (List Analyzer)
  | none => return l.registry.enabled
  | some names => names.filterMapM fun name => do
    match l.registry.get? name with
    | some a => return some a
    | none =>
      record (.unknownAnalyzer name)
      return none

/-- Adds what one analyzer finds in a document; one whose rules are all off is left out. -/
def runAnalyzer (l : Linter) (doc : Document) (r : Results) (a : Analyzer) :
    Work LintError Results := do
  poll (.canceled Token.canceledMessage)
  match severities l.options a with
  | .error e => throw (.unknownSeverity e)
  | .ok sev =>
    if sev.all fun e => e.2.isNone then
      record (.skippedAnalyzer a.name)
      return r
    else
      let found ← runOne a sev doc
      return r.addBlock a.name (l.suppressions.keep found) (Binary64.zero false)

def run (l : Linter) (selection : Option (List String)) (doc : Document) :
    Work LintError Results := do
  (← l.select selection).foldlM (l.runAnalyzer doc) .empty

def runAll (l : Linter) (selection : Option (List String)) (docs : List Document) :
    Work LintError Results :=
  docs.foldlM (fun r doc => return r.merge (← l.run selection doc)) .empty

end Linter

end TierHost
