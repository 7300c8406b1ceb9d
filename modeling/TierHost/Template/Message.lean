import TierHost.Template.Render

/-!
Message templates: literal text with fields in braces. A template is cut into parts first; filling
it goes through the parts in order, so the first fault in reading order is the one reported.
-/

namespace TierHost.Template

open Text

/-- A part of a template. The first fault of the text ends it. -/
inductive Part where
  | literal (c : Char)
  | field (name : List Char) (conversion : Option Char) (spec : List Char) (nested : Bool)
  | broken (fault : Malformed)
  deriving DecidableEq, Repr

/-- Reads a field name up to the character that ends it; a bracketed index may hold any. -/
def scanName : Bool → List Char → Except Malformed (List Char × Char × List Char)
  | _, [] => .error .unclosedField
  | true, c :: cs => do
    let (name, stop, rest) ← scanName (c != ']') cs
    return (c :: name, stop, rest)
  | false, c :: cs =>
    if c = '{' then .error .braceInName
    else if c = '}' || c = ':' || c = '!' then .ok ([], c, cs)
    else do
      let (name, stop, rest) ← scanName (c == '[') cs
      return (c :: name, stop, rest)

/-- Reads a format code up to the brace that closes the field; `depth` counts inner open braces. -/
def scanSpec : Nat → List Char → Except Malformed (List Char × List Char)
  | _, [] => .error .unclosedSpec
  | depth, c :: cs =>
    if c = '}' && depth = 0 then .ok ([], cs)
    else do
      let depth := if c = '{' then depth + 1 else if c = '}' then depth - 1 else depth
      let (spec, rest) ← scanSpec depth cs
      return (c :: spec, rest)

def scanField (s : List Char) : Except Malformed (Part × List Char) := do
  let (name, stop, rest) ← scanName false s
  let withSpec (conversion : Option Char) (rest : List Char) :
      Except Malformed (Part × List Char) := do
    let (spec, rest) ← scanSpec 0 rest
    return (.field name conversion spec (spec.contains '{'), rest)
  if stop = '}' then return (.field name none [] false, rest)
  else if stop = ':' then withSpec none rest
  else match rest with
    | [] => throw .noConversion
    | [c] => withSpec (some c) []
    | c :: '}' :: rest => return (.field name (some c) [] false, rest)
    | c :: ':' :: rest => withSpec (some c) rest
    | _ => throw .colonExpected

/-- Cuts a template into parts; the number bounds their count. -/
def partsBy : Nat → List Char → List Part
  | 0, _ => []
  | _, [] => []
  | fuel + 1, c :: cs =>
    if c = '{' then
      match cs with
      | [] => [.broken .strayOpen]
      | d :: rest =>
        if d = '{' then .literal '{' :: partsBy fuel rest
        else match scanField cs with
          | .ok (part, rest) => part :: partsBy fuel rest
          | .error fault => [.broken fault]
    else if c = '}' then
      match cs with
      | '}' :: rest => .literal '}' :: partsBy fuel rest
      | _ => [.broken .strayClose]
    else .literal c :: partsBy fuel cs

def parts (s : List Char) : List Part := partsBy s.length s

/-- How fields are numbered: not known yet, by position with the next index, or by hand. -/
inductive Numbering where
  | undecided
  | automatic (next : Nat)
  | manual
  deriving DecidableEq, Repr

/-- The index that a text consists of; digits beyond the limit are a fault where they are met. -/
def indexOf? (s : List Char) : Except Malformed (Option Nat) :=
  match s with
  | [] => .ok none
  | _ => do
    let (ds, rest) := leadingDigits s
    let n ← boundedNumber ds
    return if rest.isEmpty then some n else none

/-- The argument that the first segment of a field name selects. -/
def select (args : List Value) (numbering : Numbering) (first : List Char) :
    Except Error (Value × Numbering) := do
  let pick (i : Nat) (numbering : Numbering) : Except Error (Value × Numbering) :=
    match args[i]? with
    | some v => .ok (v, numbering)
    | none => .error (.outOfRange i)
  match ← (indexOf? first).mapError Error.malformed with
  | some i =>
    match numbering with
    | .automatic _ => throw (.malformed .automaticToManual)
    | _ => pick i .manual
  | none =>
    if first.isEmpty then
      match numbering with
      | .undecided => pick 0 (.automatic 1)
      | .automatic next => pick next (.automatic (next + 1))
      | .manual => throw (.malformed .manualToAutomatic)
    else throw (.unknownName (String.ofList first))

/-- Follows the attributes and indexes behind the first segment of a field name. -/
def follow : Nat → Subject → List Char → Except Error Subject
  | 0, s, _ => .ok s
  | _, s, [] => .ok s
  | fuel + 1, s, c :: cs =>
    if c = '.' then do
      let name := cs.takeWhile fun c => c != '.' && c != '['
      if name.isEmpty then throw (.malformed .emptyAttribute)
      follow fuel (← s.attributeNamed (String.ofList name)) (cs.drop name.length)
    else if c = '[' then do
      let key := cs.takeWhile (· != ']')
      if key.length = cs.length then throw (.malformed .missingBracket)
      let index ← (indexOf? key).mapError Error.malformed
      if key.isEmpty then throw (.malformed .emptyAttribute)
      follow fuel (← s.itemAt (String.ofList key) index) (cs.drop (key.length + 1))
    else .error (.malformed .strayAfterBracket)

def fieldSubject (args : List Value) (numbering : Numbering) (name : List Char) :
    Except Error (Subject × Numbering) := do
  let first := name.takeWhile fun c => c != '.' && c != '['
  let (v, numbering) ← select args numbering first
  let path := name.drop first.length
  return (← follow path.length (.value v) path, numbering)

/-- What a field leads to after a conversion to text; the null character asks for none. -/
def convert (s : Subject) : Option Char → Except Error Subject
  | none => .ok s
  | some c =>
    let asText (text : Option String) := (written text).map fun text => .value (.text text)
    if c = '\x00' then .ok s
    else if c = 'r' then asText s.literal?
    else if c = 's' then asText s.display?
    else if c = 'a' then asText s.asciiLiteral?
    else .error (.malformed (.unknownConversion c))

/-- Fills a template; format codes may hold fields themselves, down to the given depth. -/
def fillBy (args : List Value) : Nat → Numbering → List Char → Except Error (List Char × Numbering)
  | 0, _, _ => .error (.malformed .tooDeep)
  | depth + 1, numbering, s =>
    (parts s).foldlM (fun (out, numbering) part => do
      match part with
      | .literal c => return (out ++ [c], numbering)
      | .broken fault => throw (.malformed fault)
      | .field name conversion spec nested =>
        let (subject, numbering) ← fieldSubject args numbering name
        let subject ← convert subject conversion
        let (spec, numbering) ←
          if nested then fillBy args depth numbering spec else pure (spec, numbering)
        return (out ++ (← renderWith subject spec), numbering)) ([], numbering)

def fill (template : String) (args : List Value) : Except Error String := do
  let (out, _) ← fillBy args 2 .undecided template.toList
  return String.ofList out

end TierHost.Template
