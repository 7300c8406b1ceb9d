import TierHost.Binary64.Basic

/-!
Decimal digits of binary values: the fewest digits that read back as the same value, and digits
rounded to a count or to a place. A rounding tie goes to the even digit.
-/

namespace TierHost.Binary64

/-- A decimal number `0.d₁d₂… · 10 ^ point`. -/
structure Digits where
  digits : List Char
  point : Int
  deriving DecidableEq, Repr

def Digits.ofNat (n : Nat) (power : Int) : Digits :=
  let digits := Nat.toDigits 10 n
  ⟨digits, power + digits.length⟩

def Digits.stripZeros (d : Digits) : Digits :=
  match (d.digits.reverse.dropWhile (· == '0')).reverse with
  | [] => { d with digits := ['0'] }
  | ds => { d with digits := ds }

/-- The exponent of the first decimal digit of a fraction that is not zero. -/
def leadingPlace (num den : Nat) : Int :=
  if den ≤ num then (Nat.toDigits 10 (num / den)).length - 1
  else
    let gap := (den + num - 1) / num - 1
    Int.negOfNat (Nat.toDigits 10 gap).length

def significant (count : Nat) (num den : Nat) : Digits :=
  if num = 0 then ⟨List.replicate count '0', 1⟩
  else
    let power := leadingPlace num den + 1 - count
    let (n, d) := scaleDown 10 num den power
    let q := roundHalfEven n d
    if q = Nat.pow 10 count then Digits.ofNat (Nat.pow 10 (count - 1)) (power + 1)
    else Digits.ofNat q power

/-- The fraction rounded to a count of decimal places, as a whole number of the last place. -/
def atPlace (places : Nat) (num den : Nat) : Nat := roundHalfEven (num * Nat.pow 10 places) den

/-- Whether `digits · 10 ^ power` is nearer to this value than to any other. -/
def readsBack (v : Binary64) (digits : Nat) (power : Int) : Bool :=
  let (n, d) := scaleDown 10 digits 1 (-power)
  ofRatio false n d = v

/-- The fewest digits, starting from `count`, that read back as the value: of the two neighbours on
each decimal grid the nearer one that does. -/
def shortestFrom (v : Binary64) (num den : Nat) : Nat → Nat → Digits
  | 0, count => significant count num den
  | fuel + 1, count =>
    let power := leadingPlace num den + 1 - count
    let (n, d) := scaleDown 10 num den power
    let nearest := roundHalfEven n d
    let other := if nearest = n / d then nearest + 1 else nearest - 1
    match [nearest, other].find? (readsBack v · power) with
    | some q => Digits.ofNat q power
    | none => shortestFrom v num den fuel (count + 1)

def shortest (significand : Nat) (exponent : Int) : Digits :=
  if significand = 0 then ⟨['0'], 1⟩
  else
    let (num, den) := ratio significand exponent
    (shortestFrom (.finite false significand exponent) num den 16 1).stripZeros

/-- Digits written with a point, and with at least so many places after it. -/
def Digits.positional (d : Digits) (places : Nat) : List Char × List Char :=
  let whole := d.digits.take d.point.toNat
  let part := List.replicate (-d.point).toNat '0' ++ d.digits.drop d.point.toNat
  let whole := if whole.isEmpty then ['0']
    else whole ++ List.replicate (d.point.toNat - d.digits.length) '0'
  (whole, part ++ List.replicate (places - part.length) '0')

def exponentMark (e : Char) (power : Int) : List Char :=
  let digits := Nat.toDigits 10 power.natAbs
  e :: (if power < 0 then '-' else '+') :: List.replicate (2 - digits.length) '0' ++ digits

/-- Joins a whole part and places, with a point between them if there are places. -/
def joinPoint (parts : List Char × List Char) : List Char :=
  if parts.2.isEmpty then parts.1 else parts.1 ++ '.' :: parts.2

def Digits.normalized (d : Digits) : List Char × List Char := (d.digits.take 1, d.digits.drop 1)

/-- The default text: shortest digits, at least one place, and an exponent beyond sixteen digits
before the point or four zeros behind it. -/
def render : Binary64 → String
  | .nan => "nan"
  | .infinite negative => if negative then "-inf" else "inf"
  | .finite negative significand exponent =>
    let d := shortest significand exponent
    let body :=
      if d.point ≤ -4 || 16 < d.point then joinPoint d.normalized ++ exponentMark 'e' (d.point - 1)
      else joinPoint (d.positional 1)
    String.ofList (if negative then '-' :: body else body)

def renderFixed (places : Nat) : Binary64 → String
  | .nan => "nan"
  | .infinite negative => if negative then "-inf" else "inf"
  | .finite negative significand exponent =>
    let (num, den) := ratio significand exponent
    let d := Digits.ofNat (atPlace places num den) (-places)
    let body := joinPoint (d.positional places)
    String.ofList (if negative then '-' :: body else body)

end TierHost.Binary64
