import TierHost.Text.Occurrence
import TierHost.Text.Numeral
import TierHost.Tier.Config

/-!
The chain of language tiers: an assembly name tells its tier and, through it, the assembly of the
tier below. The tier at the baseline follows the root test assembly.
-/

namespace TierHost

/-- One link of the chain, seen from the current tier. -/
structure Chain where
  tier : Int
  previousToken : String
  previousAssembly : String
  currentToken : String
  currentAssembly : String
  deriving DecidableEq, Repr

namespace Chain

/-- Whether the tier below is the root test assembly, which has no token. -/
def followsRoot (c : Chain) : Bool := c.previousToken.isEmpty

/-- What an assembly name means for the chain. -/
inductive Standing where
  | notVersioned
  | tooLong (digits : Nat)
  | belowBaseline
  | link (c : Chain)
  deriving DecidableEq, Repr

/-- The name that tiers of a configuration have in common, before their number. -/
def stem (config : Config) : String := config.rootAssembly ++ "." ++ config.language

/-- The digits that an assembly name has after the stem. -/
def tierDigits? (config : Config) (name : String) : Option (List Char) :=
  let front := (stem config).toList
  if front.isPrefixOf name.toList then
    let digits := name.toList.drop front.length
    if !digits.isEmpty && digits.all Char.isDigit then some digits else none
  else none

def token (config : Config) (tier : Int) : String := config.language ++ toString tier

/-- The link of a tier that is not below the baseline. -/
def ofTier (config : Config) (tier : Int) (name : String) : Chain :=
  let previousToken := if tier = config.baseline then "" else token config (tier - 1)
  let previousAssembly :=
    if tier = config.baseline then config.rootAssembly
    else config.rootAssembly ++ "." ++ previousToken
  ⟨tier, previousToken, previousAssembly, token config tier, name⟩

def standing (config : Config) (name : String) : Standing :=
  match tierDigits? config name with
  | none => .notVersioned
  | some digits =>
    -- a number with too many digits is refused before anything is known of its value
    if Text.digitLimit < digits.length then .tooLong digits.length
    else
      let tier : Int := Nat.ofDigitChars 10 digits 0
      if tier < config.baseline then .belowBaseline else .link (ofTier config tier name)

/-- What a tier number with too many digits is answered with. -/
def tooLongMessage (digits : Nat) : String :=
  "Exceeds the limit (" ++ toString Text.digitLimit ++
    " digits) for integer string conversion: value has " ++ toString digits ++
    " digits; use sys.set_int_max_str_digits() to increase the limit"

end Chain

end TierHost
