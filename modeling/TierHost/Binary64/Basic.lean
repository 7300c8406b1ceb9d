/-!
Binary floating-point values of 64 bits as exact numbers, and the value nearest to a fraction. A tie
goes to the even significand.
-/

namespace TierHost

/-- A value: `± significand · 2 ^ exponent`, an infinity, or no number at all. -/
inductive Binary64 where
  | finite (negative : Bool) (significand : Nat) (exponent : Int)
  | infinite (negative : Bool)
  | nan
  deriving DecidableEq, Repr

namespace Binary64

/-- The quotient rounded to the nearest whole number, a half to the even one. -/
def roundHalfEven (num den : Nat) : Nat :=
  let q := num / den
  let r := num % den
  if 2 * r < den then q
  else if den < 2 * r then q + 1
  else if q % 2 = 0 then q else q + 1

def scaleDown (base : Nat) (num den : Nat) (power : Int) : Nat × Nat :=
  if power < 0 then (num * Nat.pow base (-power).toNat, den)
  else (num, den * Nat.pow base power.toNat)

def lowestExponent : Int := -1074

def zero (negative : Bool) : Binary64 := .finite negative 0 lowestExponent

/-- The value nearest to `± num / den`; a fraction beyond the largest value becomes infinite. -/
def ofRatio (negative : Bool) (num den : Nat) : Binary64 :=
  if num = 0 then zero negative
  else
    let guess : Int := (num.log2 : Int) - den.log2 - 52
    let (n, d) := scaleDown 2 num den guess
    let exponent := max (if n < Nat.pow 2 52 * d then guess - 1 else guess) lowestExponent
    let (n, d) := scaleDown 2 num den exponent
    let q := roundHalfEven n d
    let (q, exponent) := if q = Nat.pow 2 53 then (Nat.pow 2 52, exponent + 1) else (q, exponent)
    if 971 < exponent then .infinite negative else .finite negative q exponent

/-- The whole number as a value; `none` when it is beyond the largest one. -/
def ofInt? (n : Int) : Option Binary64 :=
  match ofRatio (n < 0) n.natAbs 1 with
  | .infinite _ => none
  | v => some v

def ratio (significand : Nat) (exponent : Int) : Nat × Nat :=
  scaleDown 2 significand 1 (-exponent)

/-- A finite value as a whole number of `2 ^ exponent`, for an exponent that is not above its own.
-/
def inUnits (exponent : Int) (negative : Bool) (significand : Nat) (own : Int) : Int :=
  let n : Int := (significand * Nat.pow 2 (own - exponent).toNat : Nat)
  if negative then -n else n

/-- The sum of two values. Zeros of unequal sign add up to plain zero, and infinities of unequal
sign to no number. -/
def add : Binary64 → Binary64 → Binary64
  | .nan, _ | _, .nan => .nan
  | .infinite n, .infinite m => if n = m then .infinite n else .nan
  | .infinite n, _ | _, .infinite n => .infinite n
  | .finite n s e, .finite m t f =>
    let exponent := min e f
    let sum := inUnits exponent n s e + inUnits exponent m t f
    if sum = 0 then zero (n && m)
    else
      let (num, den) := scaleDown 2 sum.natAbs 1 (-exponent)
      ofRatio (sum < 0) num den

end TierHost.Binary64
