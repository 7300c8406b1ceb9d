import TierHost.Template.Spec
import TierHost.Template.Subject

/-!
Values laid out under a format code: text is cut and padded, numbers get their sign, digits in a
base, groups, and padding.
-/

namespace TierHost.Template

/-- Pads a text to the width; of an odd padding the larger half goes behind. -/
def Spec.pad (spec : Spec) (s : List Char) : List Char :=
  let gap := spec.width - s.length
  let blanks (n : Nat) := List.replicate n spec.fill
  match spec.align with
  | .left => s ++ blanks gap
  | .right => blanks gap ++ s
  | .center => blanks (gap / 2) ++ s ++ blanks (gap - gap / 2)
  | .inner => blanks gap ++ s

def renderText (s : List Char) (text : List Char) : Except Malformed (List Char) := do
  if text.isEmpty then return s
  let spec ← Spec.read "str" .left (some 's') text
  if let some code := spec.code then
    if code != 's' then throw (.unknownCode code "str")
  if let some sign := spec.sign then
    throw (if sign = ' ' then .spaceOnText else .signOnText)
  if spec.positiveZero then throw .zeroCoercionOnText
  if spec.alternate then throw .alternateOnText
  if spec.align = .inner then throw .innerAlignOnText
  return spec.pad (match spec.precision with
    | some n => s.take n
    | none => s)

/-- Groups digits, the last first, and adds zeros until the width is reached. -/
def groupFrom (size : Nat) (mark : Char) : Nat → List Char → Int → List Char
  | 0, digits, _ => digits
  | fuel + 1, digits, width =>
    let count := min size (max (max digits.length width.toNat) 1)
    let group := digits.take count ++ List.replicate (count - digits.length) '0'
    let rest := digits.drop count
    if rest.isEmpty && width ≤ count then group
    else group ++ mark :: groupFrom size mark fuel rest (width - count - 1)

/-- Digits with grouping marks, filled with zeros up to a width. -/
def groupDigits (spec : Spec) (size : Nat) (digits : List Char) (width : Int) : List Char :=
  match spec.separator with
  | none => List.replicate (width.toNat - digits.length) '0' ++ digits
  | some mark =>
    (groupFrom size mark (digits.length + width.toNat + 1) digits.reverse width).reverse

def Spec.signText (spec : Spec) (negative : Bool) : List Char :=
  if negative then ['-']
  else match spec.sign with
    | some '+' => ['+']
    | some ' ' => [' ']
    | _ => []

/-- A number laid out from its sign, base mark, digits before the point and the text after them. -/
def Spec.layNumber (spec : Spec) (size : Nat) (negative : Bool) (mark digits after : List Char) :
    List Char :=
  let front := spec.signText negative ++ mark
  let fixed := front.length + after.length
  let inside : Int := if spec.fill = '0' && spec.align = .inner then spec.width - fixed else 0
  let grouped := if digits.isEmpty then [] else groupDigits spec size digits inside
  match spec.align with
  | .inner =>
    front ++ List.replicate (spec.width - (fixed + grouped.length)) spec.fill ++ grouped ++ after
  | _ => spec.pad (front ++ grouped ++ after)

/-- A finite real number in a presentation: whether it counts as zero, the digits before the point,
and the text behind them. -/
def realParts (spec : Spec) (code : Option Char) (significand : Nat) (exponent : Int) :
    Bool × List Char × List Char :=
  let (num, den) := Binary64.ratio significand exponent
  let point (places : List Char) := if places.isEmpty && !spec.alternate then [] else '.' :: places
  let scientific (d : Binary64.Digits) (e : Char) :=
    (d.digits.take 1, point (d.digits.drop 1) ++ Binary64.exponentMark e (d.point - 1))
  let isZero (d : List Char) := d.all (· == '0')
  let lower := code.map Char.toLower
  let e := if code.any Char.isUpper then 'E' else 'e'
  if lower = some 'e' then
    let d := Binary64.significant (spec.precision.getD 6 + 1) num den
    (isZero d.digits, scientific d e)
  else if lower = some 'f' || lower = some '%' then
    let places := spec.precision.getD 6
    let d := Binary64.Digits.ofNat (Binary64.atPlace places num den) (-places)
    let (whole, part) := d.positional places
    (isZero d.digits, whole, point part)
  else
    let default := code.isNone
    let d := match spec.precision, default with
      | none, true => Binary64.shortest significand exponent
      | precision, _ =>
        let d := Binary64.significant (max (precision.getD 6) 1) num den
        if spec.alternate then d else d.stripZeros
    let widest := match spec.precision, default with
      | none, true => 16
      | some n, true => max n 1 - 1
      | precision, false => max (precision.getD 6) 1
    if d.point ≤ -4 || (widest : Int) < d.point then (isZero d.digits, scientific d e)
    else
      let (whole, part) := d.positional (if default then 1 else 0)
      (isZero d.digits, whole, point part)

def precisionLimit : Nat := 2147483647

/-- A real number under a format code; `type` names the kind of the value that was given. -/
def renderReal (type : String) (spec : Spec) (x : Binary64) : Except Malformed (List Char) := do
  let code ← match spec.code with
    | none | some '\x00' => pure none
    | some c =>
      if "eEfFgGn%".toList.contains c then pure (some (if c = 'n' then 'g' else c))
      else throw (.unknownCode c type)
  if precisionLimit < spec.precision.getD 0 then throw .precisionTooBig
  let percent := if code = some '%' then ['%'] else []
  let upper := code.any Char.isUpper
  let special (name : String) :=
    (if upper then name.toList.map Char.toUpper else name.toList) ++ percent
  match x with
  | .nan => return spec.layNumber 3 false [] [] (special "nan")
  | .infinite negative => return spec.layNumber 3 negative [] [] (special "inf")
  | .finite negative significand exponent =>
    let hundredfold := match Binary64.ratio significand exponent with
      | (num, den) => Binary64.ofRatio negative (num * 100) den
    match if percent.isEmpty then Binary64.finite negative significand exponent
      else hundredfold with
    | .finite negative significand exponent =>
      let (isZero, whole, after) := realParts spec code significand exponent
      let negative := negative && !(spec.positiveZero && isZero)
      return spec.layNumber 3 negative [] whole (after ++ percent)
    | _ => return spec.layNumber 3 negative [] [] (special "inf")

/-- The base of a presentation of whole numbers and its mark. -/
def baseOf? (code : Char) : Option (Nat × List Char) :=
  if code = 'd' || code = 'n' then some (10, [])
  else if code = 'b' then some (2, ['0', 'b'])
  else if code = 'o' then some (8, ['0', 'o'])
  else if code = 'x' then some (16, ['0', 'x'])
  else if code = 'X' then some (16, ['0', 'X'])
  else none

def renderCharacter (spec : Spec) (n : Int) : Except Error (List Char) := do
  if spec.sign.isSome then throw (.malformed .signOnCharacter)
  if spec.alternate then throw (.malformed .alternateOnCharacter)
  if n < -0x8000000000000000 || 0x8000000000000000 ≤ n then throw .beyondWord
  if n < 0 || 0x110000 ≤ n then throw .notCodePoint
  return spec.layNumber 3 false [] [] [Char.ofNat n.toNat]

def renderWhole (type : String) (n : Int) (text : List Char) : Except Error (List Char) := do
  let spec ← (Spec.read type .right (some 'd') text).mapError .malformed
  let code := spec.code.getD 'd'
  if code = 'c' || (baseOf? code).isSome then
    if spec.precision.isSome then throw (.malformed .precisionOnWhole)
    if spec.positiveZero then throw (.malformed .zeroCoercionOnWhole)
  if code = 'c' then renderCharacter spec n
  else match baseOf? code with
    | some (base, mark) =>
      let digits := Nat.toDigits base n.natAbs
      if base = 10 && Text.digitLimit < digits.length then throw .unwritable
      let digits := if code = 'X' then digits.map Char.toUpper else digits
      let mark := if spec.alternate then mark else []
      return spec.layNumber (if base = 10 then 3 else 4) (n < 0) mark digits []
    | none =>
      if "eEfFgG%".toList.contains code then
        match Binary64.ofInt? n with
        | some x => (renderReal type spec x).mapError .malformed
        | none => throw .beyondReal
      else throw (.malformed (.unknownCode code type))

def renderValue (v : Value) (text : List Char) : Except Error (List Char) :=
  let type := (Kind.ofValue v).name
  match v with
  | .text s => (renderText s.toList text).mapError .malformed
  | .whole n => renderWhole type n text
  | .flag b => renderWhole type (Value.ofFlag b) text
  | .real x => do
    let spec ← (Spec.read type .right none text).mapError .malformed
    (renderReal type spec x).mapError .malformed
  | .absent => .error (.unsupportedSpec type)

/-- What a field leads to under a format code; the empty code gives the plain text, and only values
know others. -/
def renderWith (s : Subject) (text : List Char) : Except Error (List Char) := do
  if text.isEmpty then return (← written s.display?).toList
  match s with
  | .value v => renderValue v text
  | s => throw (.unsupportedSpec s.typeName)

end TierHost.Template
