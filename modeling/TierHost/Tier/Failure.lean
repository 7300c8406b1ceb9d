import TierHost.Text.Numeral
import TierHost.Tier.Config

/-!
Failures of the generator. Each has a structured code, a message, and possibly a hint.
-/

namespace TierHost

/-- The stage of generation that a failure belongs to. -/
inductive Phase where
  | config
  | resolve
  | collect
  | rename
  | emit
  | output
  deriving DecidableEq, Repr

namespace Phase

def all : List Phase := [.config, .resolve, .collect, .rename, .emit, .output]

def name : Phase → String
  | .config => "config"
  | .resolve => "resolve"
  | .collect => "collect"
  | .rename => "rewrite"
  | .emit => "emit"
  | .output => "output"

def label (p : Phase) : String := p.name.map Char.toUpper

def ofName? (s : String) : Option Phase := all.find? fun p => p.name = s

def unknown (s : String) : String := Text.literal s ++ " is not a valid ErrorPhase"

end Phase

/-- A failure code: a family and a number, which has few enough digits to be written, and the phase it arises
in. -/
structure ErrorCode where
  family : String
  number : Int
  phase : Phase
  deriving DecidableEq, Repr

namespace ErrorCode

/-- The written code: the number takes four places, its sign included. -/
def text (c : ErrorCode) : String := c.family ++ "-" ++ Text.zeroPadded 4 c.number

def describe (c : ErrorCode) : String :=
  "ErrorCode(" ++ Text.literal c.text ++ ", " ++ c.phase.label ++ ")"

/-- Codes are the same when family and number agree, whatever the phase. -/
def same (c d : ErrorCode) : Bool := c.family = d.family && c.number = d.number

def invalidConfigValue : ErrorCode := ⟨"MIRROR", 1, .config⟩

def invalidConfigOption : ErrorCode := ⟨"MIRROR", 2, .config⟩

def duplicateHintName : ErrorCode := ⟨"MIRROR", 4001, .output⟩

/-- A state that cannot arise. -/
def unreachable : ErrorCode := ⟨"MIRROR", 9001, .emit⟩

def malformedCandidate : ErrorCode := ⟨"MIRROR", 9002, .rename⟩

/-- The codes that have a name. -/
def named : List (String × ErrorCode) := [
  ("INVALID_CONFIG_VALUE", invalidConfigValue),
  ("INVALID_CONFIG_OPTION", invalidConfigOption),
  ("DUPLICATE_HINT_NAME", duplicateHintName),
  ("UNREACHABLE", unreachable),
  ("MALFORMED_CANDIDATE", malformedCandidate)]

def ofName? (name : String) : Option ErrorCode := (named.find? fun e => e.1 = name).map (·.2)

end ErrorCode

/-- What a failure is about. -/
inductive Category where
  | general
  | config
  | duplicate
  | internal
  deriving DecidableEq, Repr

def Category.defaultCode : Category → ErrorCode
  | .config => .invalidConfigValue
  | .duplicate => .duplicateHintName
  | .general | .internal => .unreachable

/-- A failure of the generator, or one that a host states in its own words. -/
inductive Failure where
  | invalidConfig (problem : Config.Problem)
  | unknownOption (key : String)
  | notInteger (key value : String)
  | duplicateHint (name : String)
  | noNamespace (candidate : String)
  | noChain
  | stated (category : Category) (message : String) (code : Option ErrorCode) (hint option : String)
  deriving DecidableEq, Repr

namespace Failure

def category : Failure → Category
  | .invalidConfig _ | .unknownOption _ | .notInteger _ _ => .config
  | .duplicateHint _ => .duplicate
  | .noNamespace _ | .noChain => .internal
  | .stated category _ _ _ _ => category

def message : Failure → String
  | .invalidConfig problem => problem.message
  | .unknownOption key => "unknown option '" ++ key ++ "'"
  | .notInteger key value => "option '" ++ key ++ "' expects an integer, got " ++ value
  | .duplicateHint name => "a source with hint name '" ++ name ++ "' was already added"
  | .noNamespace candidate => "candidate '" ++ candidate ++ "' has no namespace"
  | .noChain => "Not reachable: candidate without a version chain"
  | .stated _ message _ _ _ => message

def code : Failure → ErrorCode
  | .invalidConfig _ | .notInteger _ _ => .invalidConfigValue
  | .unknownOption _ => .invalidConfigOption
  | .duplicateHint _ => .duplicateHintName
  | .noNamespace _ => .malformedCandidate
  | .noChain => .unreachable
  | .stated category _ code _ _ => code.getD category.defaultCode

/-- The hint of a failure, empty if there is none. -/
def hint : Failure → String
  | .duplicateHint _ => "generated type names must be unique within one compilation"
  | .stated _ _ _ hint _ => hint
  | _ => ""

/-- The option at fault, empty if it is none in particular; only configuration failures have it. -/
def option? : Failure → Option String
  | .invalidConfig _ => some ""
  | .unknownOption key | .notInteger key _ => some key
  | .stated .config _ _ _ option => some option
  | _ => none

def hintName? : Failure → Option String
  | .duplicateHint name => some name
  | _ => none

/-- The report of a failure, in the form of a compiler message, with the hint on a second line. -/
def report (f : Failure) : String :=
  let text := "testmirror: error: " ++ f.message ++ " [" ++ f.code.text ++ "]"
  if f.hint.isEmpty then text else text ++ "\nhint: " ++ f.hint

end Failure

end TierHost
