import TierHost.Text.Printable

/-!
Quoted literals: how texts appear inside messages. The quote is a single one unless the text holds
single quotes and no double ones.
-/

namespace TierHost.Text

/-- The last `width` hexadecimal digits of a number, in lower case. -/
def hexDigits : Nat → Nat → List Char
  | 0, _ => []
  | width + 1, n => hexDigits width (n / 16) ++ [Nat.digitChar (n % 16)]

/-- A character written by its code point, with the shortest of the three escapes that holds it. -/
def codePointEscape (c : Char) : List Char :=
  let n := c.toNat
  if n < 0x100 then '\\' :: 'x' :: hexDigits 2 n
  else if n < 0x10000 then '\\' :: 'u' :: hexDigits 4 n
  else '\\' :: 'U' :: hexDigits 8 n

def literalQuote (s : List Char) : Char :=
  if s.contains '\'' && !s.contains '"' then '"' else '\''

/-- One character inside a literal; `plain` says which characters stand for themselves. -/
def literalChar (plain : Char → Bool) (quote c : Char) : List Char :=
  if c = quote || c = '\\' then ['\\', c]
  else if c = '\t' then ['\\', 't']
  else if c = '\n' then ['\\', 'n']
  else if c = '\r' then ['\\', 'r']
  else if plain c then [c]
  else codePointEscape c

/-- A literal in which the characters of `plain` stand for themselves. -/
def literalBy (plain : Char → Bool) (s : List Char) : List Char :=
  let quote := literalQuote s
  quote :: s.flatMap (literalChar plain quote) ++ [quote]

def literal (s : String) : String := String.ofList (literalBy isPrintable s.toList)

/-- The literal with everything beyond ASCII escaped as well. -/
def asciiLiteral (s : String) : String :=
  String.ofList (literalBy (fun c => isPrintable c && c.toNat < 0x80) s.toList)

end TierHost.Text
