import TierHost.Binary64.Digits
import TierHost.Text.Numeral
import TierHost.Text.Quoted

/-!
Simple values as hosts hand them over, for messages and for options, and the texts that stand for
them. A number with too many digits has no text.
-/

namespace TierHost

/-- A text, a whole number, a flag, a real number, or nothing. -/
inductive Value where
  | text (s : String)
  | whole (n : Int)
  | flag (b : Bool)
  | real (x : Binary64)
  | absent
  deriving DecidableEq, Repr

namespace Value

def display? : Value → Option String
  | .text s => some s
  | .whole n => Text.write? n
  | .flag b => some (if b then "True" else "False")
  | .real x => some x.render
  | .absent => some "None"

/-- The text as it is quoted in messages. -/
def literal? : Value → Option String
  | .text s => some (Text.literal s)
  | v => v.display?

/-- The quoted text with everything beyond ASCII escaped. -/
def asciiLiteral? : Value → Option String
  | .text s => some (Text.asciiLiteral s)
  | v => v.display?

def ofFlag (b : Bool) : Int := if b then 1 else 0

end Value

end TierHost
