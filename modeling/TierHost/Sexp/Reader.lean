import TierHost.Binary64.Reader
import TierHost.Sexp.Basic

/-!
Reading s-expressions from text. The main function reads the one expression that a text holds.
-/

namespace TierHost.Sexp

open Text

/-- Why a text is not an s-expression. -/
inductive ReadError where
  | openText
  | loneBackslash
  | unclosed (closer : Char) (found : Option Char)
  | unopened (rest : String)
  | nothingQuoted (position : Nat)
  | notSingle
  deriving DecidableEq, Repr

def ReadError.message : ReadError → String
  | .openText => "'NoneType' object has no attribute 'start'"
  | .loneBackslash => "string index out of range"
  | .unclosed closer found =>
    let found := found.elim "None" fun c => literal c.toString
    "Not enough closing brackets. Expected " ++ literal closer.toString ++
      " to be the last letter in the sexp. Got: " ++ found
  | .unopened rest =>
    "Too many closing brackets. Expected no character left in the sexp. Got: " ++ literal rest
  | .nothingQuoted position =>
    "No s-exp is found after an apostrophe at position " ++ toString position
  | .notSingle => ""

/-- Blanks between expressions. -/
def isSpace (c : Char) : Bool :=
  c = ' ' || (0x09 ≤ c.toNat && c.toNat ≤ 0x0d)

def endsAtom (c : Char) : Bool := "()[]\";".toList.contains c || isSpace c

def unescapeText (c : Char) : List Char :=
  if c = '\\' || c = '"' then [c]
  else if c = 'b' then [Char.ofNat 0x08]
  else if c = 'f' then [Char.ofNat 0x0c]
  else if c = 'n' then ['\n']
  else if c = 'r' then ['\r']
  else if c = 't' then ['\t']
  -- any other character keeps its backslash
  else ['\\', c]

def unescapeAtom (c : Char) : List Char :=
  if "\\'`\"()[] ,?;#".toList.contains c then [c] else ['\\', c]

/-- Reads a text up to its closing quote. -/
def readText : List Char → Except ReadError (List Char × List Char)
  | [] => .error .openText
  | '"' :: rest => .ok ([], rest)
  | ['\\'] => .error .loneBackslash
  | '\\' :: c :: rest => do
    let (s, rest) ← readText rest
    return (unescapeText c ++ s, rest)
  | c :: rest => do
    let (s, rest) ← readText rest
    return (c :: s, rest)

def readToken : List Char → Except ReadError (List Char × List Char)
  | [] => .ok ([], [])
  | ['\\'] => .error .loneBackslash
  | '\\' :: c :: rest => do
    let (s, rest) ← readToken rest
    return (unescapeAtom c ++ s, rest)
  | c :: rest =>
    if endsAtom c then .ok ([], c :: rest)
    else do
      let (s, rest) ← readToken rest
      return (c :: s, rest)

/-- The expression that an atom stands for: the empty list, truth, a number, or a symbol. -/
def ofToken (token : List Char) : Sexp :=
  if token = ['n', 'i', 'l'] then .list []
  else if token = ['t'] then .truth
  else match Numeral.read token with
    | .value n => .whole n
    | _ => match Binary64.read? token with
      | some x => .real x
      | none => .symbol (String.ofList token)

/-- Reads expressions up to the end of the text or to a closing bracket, which is left in place. The
first number bounds the steps, the second is the length of the whole text. -/
def readItems : Nat → Nat → List Char → Except ReadError (List Sexp × List Char)
  | 0, _, s => .ok ([], s)
  | _, _, [] => .ok ([], [])
  | fuel + 1, size, c :: cs =>
    if isSpace c then readItems fuel size cs
    -- a comment goes up to the end of its line
    else if c = ';' then readItems fuel size (cs.dropWhile (· != '\n'))
    else if c = ')' || c = ']' then .ok ([], c :: cs)
    else if c = '"' then do
      let (s, rest) ← readText cs
      let (items, rest) ← readItems fuel size rest
      return (.text (String.ofList s) :: items, rest)
    else if c = '(' || c = '[' then do
      let (inner, rest) ← readItems fuel size cs
      -- the inner expressions stop at any bracket, which must be the one that closes this list
      let closer := if c = '(' then ')' else ']'
      match rest with
      | d :: rest =>
        if d = closer then
          let (items, rest) ← readItems fuel size rest
          return ((if c = '(' then .list inner else .brackets inner) :: items, rest)
        else throw (.unclosed closer (some d))
      | [] => throw (.unclosed closer none)
    else if c = '\'' then do
      match ← readItems fuel size cs with
      | ([], _) => throw (.nothingQuoted (size - cs.length - 1))
      | (item :: items, rest) => return (.quoted item :: items, rest)
    else do
      let (token, rest) ← readToken (c :: cs)
      let (items, rest) ← readItems fuel size rest
      return (ofToken token :: items, rest)

def read (s : String) : Except ReadError Sexp := do
  let cs := s.toList
  let (items, rest) ← readItems (cs.length + 1) cs.length cs
  if !rest.isEmpty then throw (.unopened (String.ofList rest))
  match items with
  | [item] => return item
  | _ => throw .notSingle

end TierHost.Sexp
