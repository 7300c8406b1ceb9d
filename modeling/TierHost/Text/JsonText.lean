import TierHost.Text.Numeral
import TierHost.Text.Quoted

/-!
JSON objects on one line, as records are exported: printable ASCII only, a blank after every comma
and colon.
-/

namespace TierHost.Text

/-- A code unit of sixteen bits in its JSON escape. -/
def unitEscape (n : Nat) : List Char := '\\' :: 'u' :: hexDigits 4 n

/-- One character inside a JSON string; beyond the basic plane it takes a surrogate pair. -/
def jsonChar (c : Char) : List Char :=
  if c = '"' then ['\\', '"']
  else if c = '\\' then ['\\', '\\']
  else if c = '\n' then ['\\', 'n']
  else if c = '\r' then ['\\', 'r']
  else if c = '\t' then ['\\', 't']
  else if c.toNat = 0x08 then ['\\', 'b']
  else if c.toNat = 0x0c then ['\\', 'f']
  else if 0x20 ≤ c.toNat && c.toNat < 0x7f then [c]
  else if c.toNat < 0x10000 then unitEscape c.toNat
  else
    let n := c.toNat - 0x10000
    unitEscape (0xd800 + n / 0x400) ++ unitEscape (0xdc00 + n % 0x400)

def jsonString (s : String) : String :=
  String.ofList ('"' :: s.toList.flatMap jsonChar ++ ['"'])

/-- A value of an exported record. -/
inductive JsonField where
  | text (s : String)
  | number (n : Int)
  deriving DecidableEq, Repr

def JsonField.render? : JsonField → Option String
  | .text s => some (jsonString s)
  | .number n => write? n

def jsonObject? (fields : List (String × JsonField)) : Option String := do
  let pairs ← fields.mapM fun (name, value) =>
    value.render?.map fun text => jsonString name ++ ": " ++ text
  return "\x7b" ++ ", ".intercalate pairs ++ "\x7d"

end TierHost.Text
