import TierHost.Template.Error
import TierHost.Template.Kind.Catalog
import TierHost.Value

/-!
What a field of a template leads to. From an argument it goes on by attributes and indexes to the
argument's kind, to members of kinds, and to what those have as members themselves.
-/

namespace TierHost.Template

def Kind.ofValue : Value → Kind
  | .text _ => .text
  | .whole _ => .whole
  | .flag _ => .flag
  | .real _ => .real
  | .absent => .absent

def Role.kind : Role → Kind
  | .operator => .operator
  | .method => .method
  | .shared => .shared
  | .free => .free
  | .creation => .boundMethod
  | .property => .property
  | .field => .field
  | .documentation => .text
  | .nothing => .absent

/-- A thing that a field leads to: a value, a kind, a member of a kind, alone or bound to a thing,
a group of kinds, the table of a kind's members, a kind with an index, or the index as a group. -/
inductive Subject where
  | value (v : Value)
  | kind (k : Kind)
  | member (owner : Kind) (m : Member)
  | bound (self : Subject) (owner : Kind) (m : Member)
  | group (kinds : List Kind)
  | table (k : Kind)
  | indexed (k : Kind) (key : Value)
  | single (key : Value)
  deriving DecidableEq, Repr

namespace Subject

def kindOf : Subject → Kind
  | .value v => .ofValue v
  | .kind _ => .kinds
  | .member _ m => m.role.kind
  | .bound _ _ m => if m.role = .operator then .boundOperator else .boundMethod
  | .group _ | .single _ => .group
  | .table _ => .table
  | .indexed _ _ => .indexed

def typeName (s : Subject) : String := s.kindOf.name

def ofText? : Option String → Subject
  | some s => .value (.text s)
  | none => .value .absent

def ofNat (n : Nat) : Subject := .value (.whole n)

/-! ## Texts -/

/-- The text of a member bound to a thing. The place of the thing in memory is no part of it and
stands as zero. -/
def boundText (typeName : String) (m : Member) : String :=
  if m.role = .operator then
    "<method-wrapper '" ++ m.name ++ "' of " ++ typeName ++ " object at 0x0>"
  else "<built-in method " ++ m.name ++ " of " ++ typeName ++ " object at 0x0>"

def memberText (owner : Kind) (m : Member) : String :=
  let of (what : String) := "<" ++ what ++ " '" ++ m.name ++ "' of '" ++ owner.name ++ "' objects>"
  match m.role with
  | .operator => of "slot wrapper"
  | .method | .shared => of "method"
  | .property => of "attribute"
  | .field => of "member"
  | .free => "<staticmethod(" ++ boundText Kind.kinds.name m ++ ")>"
  | .creation => boundText Kind.kinds.name m
  | .documentation => (owner.doc?.map Text.literal).getD "None"
  | .nothing => "None"

def groupText : List Kind → String
  | [k] => "(" ++ k.display ++ ",)"
  | ks => "(" ++ ", ".intercalate (ks.map Kind.display) ++ ")"

def tableText (k : Kind) : String :=
  "\x7b" ++ ", ".intercalate
    (k.members.map fun m => Text.literal m.name ++ ": " ++ memberText k m) ++ "\x7d"

def indexedText (k : Kind) (key : String) : String := k.name ++ "[" ++ key ++ "]"

def singleText (key : String) : String := "(" ++ key ++ ",)"

def display? : Subject → Option String
  | .value v => v.display?
  | .kind k => some k.display
  | .member owner m => some (memberText owner m)
  | .bound self _ m => some (boundText self.typeName m)
  | .group ks => some (groupText ks)
  | .table k => some (tableText k)
  | .indexed k key => key.literal?.map (indexedText k)
  | .single key => key.literal?.map singleText

def literal? : Subject → Option String
  | .value v => v.literal?
  | .table k => some ("mappingproxy(" ++ tableText k ++ ")")
  | s => s.display?

/-- The quoted text with everything beyond ASCII escaped. -/
def asciiLiteral? : Subject → Option String
  | .value v => v.asciiLiteral?
  | .indexed k key => key.asciiLiteral?.map (indexedText k)
  | .single key => key.asciiLiteral?.map singleText
  | s => s.literal?

/-! ## Attributes -/

def wholePart? (n : Int) (name : String) : Option Value :=
  if name = "real" || name = "numerator" then some (.whole n)
  else if name = "imag" then some (.whole 0)
  else if name = "denominator" then some (.whole 1)
  else none

def valuePart? (name : String) : Value → Option Value
  | .whole n => wholePart? n name
  | .flag b => wholePart? (Value.ofFlag b) name
  | .real x =>
    if name = "real" then some (.real x)
    else if name = "imag" then some (.real (Binary64.zero false))
    else none
  | .text _ | .absent => none

/-- The description of a kind, which may be a member that describes its values. -/
def kindDoc (k : Kind) : Subject :=
  match k.doc?, k.ownMember? "__doc__" with
  | none, some m => if m.role = .property then .member k m else .value .absent
  | doc, _ => ofText? doc

def kindPart? (k : Kind) (name : String) : Option Subject :=
  if name = "__name__" || name = "__qualname__" then some (.value (.text k.path.2))
  else if name = "__module__" then some (.value (.text k.path.1))
  else if name = "__base__" then some ((k.base?.map .kind).getD (.value .absent))
  else if name = "__bases__" then some (.group k.base?.toList)
  else if name = "__mro__" then some (.group k.lineage)
  else if name = "__dict__" then some (.table k)
  else if name = "__doc__" then some (kindDoc k)
  else if name = "__text_signature__" then some (ofText? k.signature?)
  else if name = "__basicsize__" then some (ofNat k.layout.size)
  else if name = "__itemsize__" then some (ofNat k.layout.itemSize)
  else if name = "__flags__" then some (ofNat k.layout.marks)
  else if name = "__dictoffset__" then some (ofNat k.layout.tableOffset)
  else if name = "__weakrefoffset__" then some (ofNat k.layout.referenceOffset)
  else none

/-- What a property or a field holds that members have alone and bound. -/
def memberPart? (owner : Kind) (m : Member) (name : String) : Option Subject :=
  if name = "__name__" then some (.value (.text m.name))
  else if name = "__objclass__" then some (.kind owner)
  else if name = "__doc__" then some (ofText? m.doc)
  else if name = "__text_signature__" then some (ofText? m.signature)
  else none

/-- The name of a bound member behind the name of the kind that it is found with: an operator keeps
its owner, a method takes the kind of the thing, or the thing if that is a kind. -/
def boundName (self : Subject) (owner : Kind) (m : Member) : String :=
  let holder := match m.role, self with
    | .operator, _ => owner
    | _, .kind k => k
    | _, self => self.kindOf
  holder.path.2 ++ "." ++ m.name

/-- What a property or a field of a kind with an index holds. -/
def indexedPart? (k : Kind) (key : Value) (name : String) : Option Subject :=
  if name = "__origin__" then some (.kind k)
  else if name = "__args__" then some (.single key)
  else if name = "__parameters__" then some (.group [])
  else if name = "__unpacked__" then some (.value (.flag false))
  else if name = "__typing_unpacked_tuple_args__" then some (.value .absent)
  else none

def part? (name : String) : Subject → Option Subject
  | .value v => (valuePart? name v).map .value
  | .kind k => kindPart? k name
  | .indexed k key => indexedPart? k key name
  | .member owner m =>
    if name = "__qualname__" then some (.value (.text (owner.path.2 ++ "." ++ m.name)))
    else if name = "__func__" || name = "__wrapped__" then some (.bound (.kind owner) owner m)
    else if name = "__isabstractmethod__" then some (.value (.flag false))
    else memberPart? owner m name
  | .bound self owner m =>
    if name = "__self__" then some (if m.role = .free then .value .absent else self)
    else if name = "__qualname__" then some (.value (.text (boundName self owner m)))
    else if name = "__module__" then some (.value .absent)
    else memberPart? owner m name
  | .group _ | .single _ | .table _ => none

def entry (owner : Kind) (m : Member) : Subject :=
  match m.role with
  | .creation => .bound (.kind owner) owner m
  | .documentation => ofText? owner.doc?
  | .nothing => .value .absent
  | _ => .member owner m

/-- A member taken through a kind: methods that need no value are bound. -/
def ofKind (k owner : Kind) (m : Member) : Subject :=
  match m.role with
  | .shared => .bound (.kind k) owner m
  | .free => .bound (.kind owner) owner m
  | _ => entry owner m

/-- A member taken through a thing of the kind: operators and methods are bound to the thing. -/
def bind (s : Subject) (owner : Kind) (m : Member) : Subject :=
  match m.role with
  | .operator | .method => .bound s owner m
  | _ => ofKind s.kindOf owner m

def missing (name : String) : Subject → Error
  | .kind k => if name = "__abstractmethods__" then .unset name else .noKindAttribute k.name name
  | s => .noAttribute s.typeName name

/-- The attributes that a kind with an index has itself. All others are those of the kind. -/
def indexedNames : List String :=
  ["__class__", "__origin__", "__args__", "__unpacked__", "__parameters__",
    "__typing_unpacked_tuple_args__", "__mro_entries__", "__reduce_ex__", "__reduce__",
    "__copy__", "__deepcopy__"]

def bearer (s : Subject) (name : String) : Subject :=
  match s with
  | .indexed k _ => if indexedNames.contains name then s else .kind k
  | s => s

/-- A member that a kind has for its values, as an attribute of the kind itself. -/
def reached? (name : String) : Subject → Option Subject
  | .kind k => (k.member? name).map fun (owner, m) => ofKind k owner m
  | _ => none

/-- An attribute of a thing. What the thing holds comes first, then what a kind has for its
values, then the members of the thing's own kind. -/
def attributeNamed (s : Subject) (name : String) : Except Error Subject :=
  let s := s.bearer name
  let found := match s.kindOf.member? name with
    | none => s.reached? name
    | some (owner, m) =>
      if name = "__class__" then some (.kind s.kindOf)
      else if m.role = .property || m.role = .field then s.part? name
      else some ((s.reached? name).getD (s.bind owner m))
  match found with
  | some part => .ok part
  | none => .error (s.missing name)

/-! ## Items -/

def keyValue (key : String) : Option Nat → Value
  | some i => .whole i
  | none => .text key

/-- An item of a thing: texts have characters, groups kinds, and tables members. -/
def itemAt (s : Subject) (key : String) (index : Option Nat) : Except Error Subject :=
  match s, index with
  | .value (.text s), some i =>
    match s.toList[i]? with
    | some c => .ok (.value (.text c.toString))
    | none => .error .noCharacter
  | .value (.text _), none => .error .textualIndex
  | .group ks, some i =>
    match ks[i]? with
    | some k => .ok (.kind k)
    | none => .error .noItem
  | .single v, some i => if i = 0 then .ok (.value v) else .error .noItem
  | .group _, none | .single _, none => .error .textualPosition
  | .table k, none =>
    match k.ownMember? key with
    | some m => .ok (entry k m)
    | none => .error (.unknownName key)
  | .table _, some i => .error (.unknownNumber i)
  | .kind k, index =>
    if k = .kinds || (k.member? "__class_getitem__").isSome then
      .ok (.indexed k (keyValue key index))
    else .error (.kindNotIndexable k.name)
  | .indexed k key, _ => do throw (.notGeneric (← written (display? (.indexed k key))))
  | s, _ => .error (.notIndexable s.typeName)

end Subject

end TierHost.Template
