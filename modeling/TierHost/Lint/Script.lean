import TierHost.Lint.Analyzer

/-!
Analyzers that are described by data: acts for kinds of node, with placeholders in message
arguments.
-/

namespace TierHost

/-- An argument of a scripted report: a value, or what the node and its document have. -/
inductive ScriptArg where
  | value (v : Value)
  | nodeName
  | nodeKind
  | file
  deriving DecidableEq, Repr

/-- An act of a script; a report without a location is made at the node's own, and a condition names
the node that an act is meant for. -/
inductive ScriptAct where
  | report (descriptor : Descriptor) (location : Option Location) (args : List ScriptArg)
  | raise (r : Raised) (ifName : Option String)
  | cancel
  deriving DecidableEq, Repr

/-- Acts for kinds of node, which are given by name. -/
structure ScriptEntry where
  kinds : List String
  acts : List ScriptAct
  deriving DecidableEq, Repr

/-- An analyzer as data; it may raise something when it starts. -/
structure Script where
  name : String
  supported : List Descriptor
  startRaises : Option Raised
  entries : List ScriptEntry
  deriving DecidableEq, Repr

namespace Script

def argAt (doc : Document) (node : Node) : ScriptArg → Value
  | .value v => v
  | .nodeName => .text node.name
  | .nodeKind => .text node.kind.name
  | .file => .text doc.file

def actAt (doc : Document) (node : Node) : ScriptAct → List Act
  | .report descriptor location args =>
    [.report ⟨descriptor, location.getD node.location, args.map (argAt doc node), none, ""⟩]
  | .raise r ifName => if ifName.all (node.name = ·) then [.raise r] else []
  | .cancel => [.cancel]

def action (e : ScriptEntry) : Action := fun doc node => e.acts.flatMap (actAt doc node)

/-- The kinds with these names, unless one of them is unknown. -/
def readKinds (names : List String) : Except String (List Kind) :=
  names.mapM fun name =>
    match Kind.ofName? name with
    | some k => .ok k
    | none => .error (Kind.unknown name)

def registerEntry (a : Actions Action) (e : ScriptEntry) : Except String (Actions Action) := do
  a.register (action e) (← readKinds e.kinds)

/-- The actions that a script registers, entry by entry, unless it raises something. -/
def start (s : Script) : Except Raised (Actions Action) :=
  match s.startRaises with
  | some r => .error r
  | none => (s.entries.foldlM registerEntry []).mapError (Raised.failure "ValueError")

def analyzer (s : Script) : Analyzer := ⟨s.name, s.supported, s.start⟩

end Script

end TierHost
