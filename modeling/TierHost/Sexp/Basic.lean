import TierHost.Binary64.Digits
import TierHost.Text.Quoted

/-!
S-expressions: atoms, parenthesised lists, bracketed lists and quoted expressions, with the two ways
to write them down: as source text, and spelled out for messages.
-/

namespace TierHost

/-- An s-expression. -/
inductive Sexp where
  | symbol (name : String)
  | text (s : String)
  | whole (n : Int)
  | real (x : Binary64)
  | truth
  | list (items : List Sexp)
  | brackets (items : List Sexp)
  | quoted (item : Sexp)
  deriving Repr

namespace Sexp

/-- The name of the kind of expression, as messages give it. -/
def typeName : Sexp → String
  | .symbol _ => "Symbol"
  | .text _ => "str"
  | .whole _ => "int"
  | .real _ => "float"
  | .truth => "bool"
  | .list _ => "list"
  | .brackets _ => "Brackets"
  | .quoted _ => "Quoted"

mutual

def describe : Sexp → String
  | .symbol name => "Symbol(" ++ Text.literal name ++ ")"
  | .text s => Text.literal s
  | .whole n => toString n
  | .real x => x.render
  | .truth => "True"
  | .list items => "[" ++ ", ".intercalate (describeAll items) ++ "]"
  | .brackets items => "Brackets(I=[" ++ ", ".intercalate (describeAll items) ++ "])"
  | .quoted item => "Quoted(" ++ describe item ++ ")"

def describeAll : List Sexp → List String
  | [] => []
  | item :: items => describe item :: describeAll items

end

def textChar (c : Char) : List Char :=
  if c = '\\' then ['\\', '\\']
  else if c = '"' then ['\\', '"']
  else if c.toNat = 0x08 then ['\\', 'b']
  else if c.toNat = 0x0c then ['\\', 'f']
  else if c = '\n' then ['\\', 'n']
  else if c = '\r' then ['\\', 'r']
  else if c = '\t' then ['\\', 't']
  else [c]

def writeText (s : List Char) : List Char := '"' :: s.flatMap textChar ++ ['"']

mutual

def write : Sexp → List Char
  | .symbol name => name.toList
  | .text s => writeText s.toList
  | .whole n => (toString n).toList
  | .real x => x.render.toList
  | .truth => ['t']
  | .list items => '(' :: writeAll items ++ [')']
  | .brackets items => '[' :: writeAll items ++ [']']
  | .quoted item => '\'' :: write item

def writeAll : List Sexp → List Char
  | [] => []
  | [item] => write item
  | item :: items => write item ++ ' ' :: writeAll items

end

end Sexp

end TierHost
