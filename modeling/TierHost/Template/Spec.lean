import TierHost.Template.Error
import TierHost.Text.Numeral

/-!
Format codes of a template field: fill and alignment, sign, width, grouping, precision and the
presentation that is asked for.
-/

namespace TierHost.Template

open Text

/-- Where padding goes: behind, in front, on both sides, or between sign and digits. -/
inductive Align where
  | left
  | right
  | center
  | inner
  deriving DecidableEq, Repr

def Align.ofChar? (c : Char) : Option Align :=
  if c = '<' then some .left
  else if c = '>' then some .right
  else if c = '^' then some .center
  else if c = '=' then some .inner
  else none

/-- A format code. -/
structure Spec where
  fill : Char
  align : Align
  sign : Option Char
  positiveZero : Bool
  alternate : Bool
  width : Nat
  separator : Option Char
  precision : Option Nat
  code : Option Char
  deriving DecidableEq, Repr

def numberLimit : Nat := 9223372036854775807

/-- The value of digits, unless it passes the limit at some digit. -/
def boundedNumber (digits : List Nat) : Except Malformed Nat :=
  digits.foldlM (fun n d =>
    if numberLimit < 10 * n + d then .error .tooManyDigits else .ok (10 * n + d)) 0

def leadingNumber (s : List Char) : Except Malformed (Option Nat × List Char) := do
  match leadingDigits s with
  | ([], rest) => return (none, rest)
  | (ds, rest) => return (some (← boundedNumber ds), rest)

def takeOne (p : Char → Bool) : List Char → Option Char × List Char
  | c :: cs => if p c then (some c, cs) else (none, c :: cs)
  | [] => (none, [])

def leadingAlign : List Char → Option Char × Option Align × List Char
  | c :: d :: cs =>
    match Align.ofChar? d, Align.ofChar? c with
    | some a, _ => (some c, some a, cs)
    | none, some a => (none, some a, d :: cs)
    | none, none => (none, none, c :: d :: cs)
  | [c] =>
    match Align.ofChar? c with
    | some a => (none, some a, [])
    | none => (none, none, [c])
  | [] => (none, none, [])

/-- The grouping mark, of which there is one kind at most. -/
def leadingSeparator (s : List Char) : Except Malformed (Option Char × List Char) :=
  match takeOne (· == ',') s with
  | (some c, rest) =>
    if rest.head? = some '_' then .error .bothSeparators else .ok (some c, rest)
  | (none, s) =>
    match takeOne (· == '_') s with
    | (some c, rest) =>
      if rest.head? = some ',' then .error .bothSeparators else .ok (some c, rest)
    | (none, s) => .ok (none, s)

def leadingPrecision : List Char → Except Malformed (Option Nat × List Char)
  | '.' :: cs => do
    match ← leadingNumber cs with
    | (none, _) => throw .missingPrecision
    | found => return found
  | s => return (none, s)

/-- Whether digits may be grouped with the mark under a presentation. Without one, or with the null
character in its place, they may. -/
def groupable (separator : Char) : Option Char → Bool
  | none | some '\x00' => true
  | some c => "defgEG%F".toList.contains c || (separator == '_' && "boxX".toList.contains c)

/-- Reads a format code for a kind of value with its usual alignment and presentation. -/
def Spec.read (type : String) (align : Align) (code : Option Char) (s : List Char) :
    Except Malformed Spec := do
  let (fill, given, rest) := leadingAlign s
  let (sign, rest) := takeOne (fun c => c == ' ' || c == '+' || c == '-') rest
  let (coercion, rest) := takeOne (· == 'z') rest
  let (alternate, rest) := takeOne (· == '#') rest
  let (zero, rest) := if fill.isNone then takeOne (· == '0') rest else (none, rest)
  let (width, rest) ← leadingNumber rest
  let (separator, rest) ← leadingSeparator rest
  let (precision, rest) ← leadingPrecision rest
  let code ← match rest with
    | [] => pure code
    | [c] => pure (some c)
    | _ => throw (.invalidSpec (String.ofList s) type)
  if let some mark := separator then
    if !groupable mark code then
      throw (.separatorWith mark (code.getD ' '))
  let usual := if zero.isSome && align = .right then .inner else align
  return {
    fill := if zero.isSome then '0' else fill.getD ' '
    align := given.getD usual
    sign, positiveZero := coercion.isSome, alternate := alternate.isSome
    width := width.getD 0
    separator, precision, code }

end TierHost.Template
