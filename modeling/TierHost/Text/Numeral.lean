import TierHost.Text.Blank
import TierHost.Text.DecimalDigit

/-!
Whole numbers in text. They are read with an optional margin of blanks, a sign, and digits of any script
with single underscores between them; they are written in decimal digits. Either way the number of digits
is limited.
-/

namespace TierHost.Text

/-- The most digits that a whole number may be read from or written with. -/
def digitLimit : Nat := 4300

/-- What reading a whole number comes to. -/
inductive Numeral where
  | value (n : Int)
  | tooLong (digits : Nat)
  | malformed
  deriving DecidableEq, Repr

/-- The blanks that may surround a number: all but the separator controls. -/
def isNumeralMargin (c : Char) : Bool :=
  isBlank c && !(0x1c ≤ c.toNat && c.toNat ≤ 0x1f)

/-- Digits with single underscores between them, as digit values. -/
def digitRun : List Char → Option (List Nat)
  | [] => none
  | [c] => (digitValue? c).map ([·])
  | c :: '_' :: rest => do return (← digitValue? c) :: (← digitRun rest)
  | c :: rest => do return (← digitValue? c) :: (← digitRun rest)

def ofDigits (ds : List Nat) : Nat := ds.foldl (fun n d => 10 * n + d) 0

def leadingDigits : List Char → List Nat × List Char
  | [] => ([], [])
  | c :: cs =>
    match digitValue? c with
    | some d => let (ds, rest) := leadingDigits cs; (d :: ds, rest)
    | none => ([], c :: cs)

/-- Splits off one sign; `true` means minus. -/
def takeSign : List Char → Bool × List Char
  | '-' :: rest => (true, rest)
  | '+' :: rest => (false, rest)
  | cs => (false, cs)

def Numeral.read (s : List Char) : Numeral :=
  let (negative, body) := takeSign (trimBy isNumeralMargin s)
  match digitRun body with
  | none => .malformed
  | some ds =>
    if digitLimit < ds.length then .tooLong ds.length
    else .value (if negative then -(ofDigits ds : Int) else ofDigits ds)

/-- The decimal writing of a whole number that does not take too many digits. -/
def write? (n : Int) : Option String :=
  if digitLimit < (Nat.toDigits 10 n.natAbs).length then none else some (toString n)

/-- What writing a number with too many digits is answered with. -/
def unwritable : String :=
  "Exceeds the limit (" ++ toString digitLimit ++ " digits) for integer string conversion; " ++
    "use sys.set_int_max_str_digits() to increase the limit"

/-- Pads with zeros between the sign and the digits up to the width. -/
def zeroPadded (width : Nat) (n : Int) : String :=
  let digits := Nat.toDigits 10 n.natAbs
  let sign := if n < 0 then ['-'] else []
  String.ofList (sign ++ List.replicate (width - sign.length - digits.length) '0' ++ digits)

end TierHost.Text
