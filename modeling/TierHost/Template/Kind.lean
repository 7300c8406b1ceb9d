/-!
The kinds of things that a field of a template can lead to: the kinds of values, and the kinds of
what values, kinds and their members have as members.
-/

namespace TierHost.Template

/-- A kind. Members of a kind are things themselves, with a kind for each role and for each form in
which they are bound to a value. -/
inductive Kind where
  | object
  | kinds
  | text
  | whole
  | flag
  | real
  | absent
  | group
  | table
  | indexed
  | operator
  | method
  | shared
  | free
  | property
  | field
  | boundOperator
  | boundMethod
  deriving DecidableEq, Repr

/-- The sizes and marks that a kind is laid out with. -/
structure Layout where
  size : Nat
  itemSize : Nat
  marks : Nat
  tableOffset : Nat
  referenceOffset : Nat
  deriving DecidableEq, Repr

namespace Kind

def name : Kind → String
  | .object => "object"
  | .kinds => "type"
  | .text => "str"
  | .whole => "int"
  | .flag => "bool"
  | .real => "float"
  | .absent => "NoneType"
  | .group => "tuple"
  | .table => "mappingproxy"
  | .indexed => "types.GenericAlias"
  | .operator => "wrapper_descriptor"
  | .method => "method_descriptor"
  | .shared => "classmethod_descriptor"
  | .free => "staticmethod"
  | .property => "getset_descriptor"
  | .field => "member_descriptor"
  | .boundOperator => "method-wrapper"
  | .boundMethod => "builtin_function_or_method"

/-- The module that a kind belongs to, and its name there. -/
def path : Kind → String × String
  | .indexed => ("types", "GenericAlias")
  | k => ("builtins", k.name)

/-- The kind that a kind extends: flags are whole numbers, and everything is an object. -/
def base? : Kind → Option Kind
  | .object => none
  | .flag => some .whole
  | _ => some .object

def lineage : Kind → List Kind
  | .object => [.object]
  | .flag => [.flag, .whole, .object]
  | k => [k, .object]

def display (k : Kind) : String := "<class '" ++ k.name ++ "'>"

def layout : Kind → Layout
  | .object => ⟨16, 0, 529664, 0, 0⟩
  | .kinds => ⟨904, 40, 2148031744, 264, 368⟩
  | .text => ⟨80, 0, 273159424, 0, 0⟩
  | .whole => ⟨24, 4, 21501184, 0, 0⟩
  | .flag => ⟨32, 4, 21500160, 0, 0⟩
  | .real => ⟨24, 0, 4723968, 0, 0⟩
  | .absent => ⟨16, 0, 528640, 0, 0⟩
  | .group => ⟨24, 8, 71849248, 0, 0⟩
  | .table => ⟨24, 0, 545088, 0, 0⟩
  | .indexed => ⟨64, 0, 548096, 0, 40⟩
  | .operator => ⟨56, 0, 676224, 0, 0⟩
  | .method => ⟨56, 0, 678272, 0, 0⟩
  | .shared => ⟨56, 0, 545152, 0, 0⟩
  | .free => ⟨32, 0, 546048, 24, 0⟩
  | .property => ⟨48, 0, 545152, 0, 0⟩
  | .field => ⟨48, 0, 545152, 0, 0⟩
  | .boundOperator => ⟨32, 0, 545152, 0, 0⟩
  | .boundMethod => ⟨56, 0, 547200, 0, 40⟩

end Kind

end TierHost.Template
