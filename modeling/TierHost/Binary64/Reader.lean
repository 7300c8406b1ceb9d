import TierHost.Binary64.Basic
import TierHost.Text.Numeral
import TierHost.Text.Quoted

/-!
Reading values from decimal text: digits with an optional point and exponent, or the names of
infinity and not-a-number in any case.
-/

namespace TierHost.Binary64

open Text

/-- Drops underscores that stand between two digits and refuses all others; `afterDigit` says what
stands before the text. -/
def dropUnderscores : Bool → List Char → Option (List Char)
  | _, [] => some []
  | afterDigit, c :: cs =>
    if c = '_' then
      match cs with
      | d :: _ =>
        if afterDigit && (digitValue? d).isSome then dropUnderscores false cs else none
      | [] => none
    else (dropUnderscores (digitValue? c).isSome cs).map (c :: ·)

/-- The exponent that a text consists of; an empty text stands for zero. -/
def exponentPart? : List Char → Option Int
  | [] => some 0
  | e :: cs =>
    if e = 'e' || e = 'E' then
      let (negative, body) := takeSign cs
      match leadingDigits body with
      | ([], _) => none
      | (ds, []) => some (if negative then -(ofDigits ds : Int) else ofDigits ds)
      | _ => none
    else none

/-- The value of `± digits · 10 ^ scale`. Far exponents are decided without computing the power. -/
def ofDecimal (negative : Bool) (digits : List Nat) (scale : Int) : Binary64 :=
  let digits := digits.dropWhile (· = 0)
  let size := scale + digits.length
  if digits.isEmpty || size < -400 then zero negative
  else if 400 < size then .infinite negative
  else
    let (num, den) := scaleDown 10 (ofDigits digits) 1 (-scale)
    ofRatio negative num den

def read? (s : List Char) : Option Binary64 := do
  let plain ← dropUnderscores false (trimBy isNumeralMargin s)
  let (negative, body) := takeSign plain
  let name := String.ofList (body.map Char.toLower)
  if name = "inf" || name = "infinity" then return .infinite negative
  if name = "nan" then return .nan
  let (whole, rest) := leadingDigits body
  let (places, rest) := match rest with
    | '.' :: rest => leadingDigits rest
    | rest => ([], rest)
  if whole.isEmpty && places.isEmpty then none
  let exponent ← exponentPart? rest
  return ofDecimal negative (whole ++ places) (exponent - places.length)

def unreadable (s : String) : String := "could not convert string to float: " ++ literal s

end TierHost.Binary64
