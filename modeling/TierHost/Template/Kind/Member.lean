import TierHost.Template.Kind

/-!
Members of kinds: what each is, how it is called and what describes it. Operators have one
signature and one description wherever they are found.
-/

namespace TierHost.Template

/-- What a member is: an operator, a method, a method shared by all values of a kind, one that is
free of them, the one that creates values, a computed property, a stored field, the description of
the kind, or nothing. -/
inductive Role where
  | operator
  | method
  | shared
  | free
  | creation
  | property
  | field
  | documentation
  | nothing
  deriving DecidableEq, Repr

/-- A member of a kind. -/
structure Member where
  name : String
  role : Role
  signature : Option String
  doc : Option String
  deriving DecidableEq, Repr

namespace Member

/-- How an operator is called and what it does. -/
structure Wording where
  name : String
  signature : String
  doc : String
  deriving DecidableEq, Repr

def operators : List Wording := [
  ⟨"__abs__", "($self, /)", "abs(self)"⟩,
  ⟨"__add__", "($self, value, /)", "Return self+value."⟩,
  ⟨"__and__", "($self, value, /)", "Return self&value."⟩,
  ⟨"__bool__", "($self, /)", "True if self else False"⟩,
  ⟨"__call__", "($self, /, *args, **kwargs)", "Call self as a function."⟩,
  ⟨"__contains__", "($self, key, /)", "Return key in self."⟩,
  ⟨"__delattr__", "($self, name, /)", "Implement delattr(self, name)."⟩,
  ⟨"__delete__", "($self, instance, /)", "Delete an attribute of instance."⟩,
  ⟨"__divmod__", "($self, value, /)", "Return divmod(self, value)."⟩,
  ⟨"__eq__", "($self, value, /)", "Return self==value."⟩,
  ⟨"__float__", "($self, /)", "float(self)"⟩,
  ⟨"__floordiv__", "($self, value, /)", "Return self//value."⟩,
  ⟨"__ge__", "($self, value, /)", "Return self>=value."⟩,
  ⟨"__get__", "($self, instance, owner=None, /)",
    "Return an attribute of instance, which is of type owner."⟩,
  ⟨"__getattribute__", "($self, name, /)", "Return getattr(self, name)."⟩,
  ⟨"__getitem__", "($self, key, /)", "Return self[key]."⟩,
  ⟨"__gt__", "($self, value, /)", "Return self>value."⟩,
  ⟨"__hash__", "($self, /)", "Return hash(self)."⟩,
  ⟨"__index__", "($self, /)",
    "Return self converted to an integer, if self is suitable for use as an index into a list."⟩,
  ⟨"__init__", "($self, /, *args, **kwargs)",
    "Initialize self.  See help(type(self)) for accurate signature."⟩,
  ⟨"__int__", "($self, /)", "int(self)"⟩,
  ⟨"__invert__", "($self, /)", "~self"⟩,
  ⟨"__ior__", "($self, value, /)", "Return self|=value."⟩,
  ⟨"__iter__", "($self, /)", "Implement iter(self)."⟩,
  ⟨"__le__", "($self, value, /)", "Return self<=value."⟩,
  ⟨"__len__", "($self, /)", "Return len(self)."⟩,
  ⟨"__lshift__", "($self, value, /)", "Return self<<value."⟩,
  ⟨"__lt__", "($self, value, /)", "Return self<value."⟩,
  ⟨"__mod__", "($self, value, /)", "Return self%value."⟩,
  ⟨"__mul__", "($self, value, /)", "Return self*value."⟩,
  ⟨"__ne__", "($self, value, /)", "Return self!=value."⟩,
  ⟨"__neg__", "($self, /)", "-self"⟩,
  ⟨"__or__", "($self, value, /)", "Return self|value."⟩,
  ⟨"__pos__", "($self, /)", "+self"⟩,
  ⟨"__pow__", "($self, value, mod=None, /)", "Return pow(self, value, mod)."⟩,
  ⟨"__radd__", "($self, value, /)", "Return value+self."⟩,
  ⟨"__rand__", "($self, value, /)", "Return value&self."⟩,
  ⟨"__rdivmod__", "($self, value, /)", "Return divmod(value, self)."⟩,
  ⟨"__repr__", "($self, /)", "Return repr(self)."⟩,
  ⟨"__rfloordiv__", "($self, value, /)", "Return value//self."⟩,
  ⟨"__rlshift__", "($self, value, /)", "Return value<<self."⟩,
  ⟨"__rmod__", "($self, value, /)", "Return value%self."⟩,
  ⟨"__rmul__", "($self, value, /)", "Return value*self."⟩,
  ⟨"__ror__", "($self, value, /)", "Return value|self."⟩,
  ⟨"__rpow__", "($self, value, mod=None, /)", "Return pow(value, self, mod)."⟩,
  ⟨"__rrshift__", "($self, value, /)", "Return value>>self."⟩,
  ⟨"__rshift__", "($self, value, /)", "Return self>>value."⟩,
  ⟨"__rsub__", "($self, value, /)", "Return value-self."⟩,
  ⟨"__rtruediv__", "($self, value, /)", "Return value/self."⟩,
  ⟨"__rxor__", "($self, value, /)", "Return value^self."⟩,
  ⟨"__set__", "($self, instance, value, /)", "Set an attribute of instance to value."⟩,
  ⟨"__setattr__", "($self, name, value, /)", "Implement setattr(self, name, value)."⟩,
  ⟨"__str__", "($self, /)", "Return str(self)."⟩,
  ⟨"__sub__", "($self, value, /)", "Return self-value."⟩,
  ⟨"__truediv__", "($self, value, /)", "Return self/value."⟩,
  ⟨"__xor__", "($self, value, /)", "Return self^value."⟩]

def operator (name : String) : Member :=
  match operators.find? fun w => w.name = name with
  | some w => ⟨name, .operator, some w.signature, some w.doc⟩
  | none => ⟨name, .operator, none, none⟩

def method (name : String) (signature doc : Option String) : Member :=
  ⟨name, .method, signature, doc⟩

def shared (name : String) (signature doc : Option String) : Member :=
  ⟨name, .shared, signature, doc⟩

def free (name : String) (signature doc : Option String) : Member :=
  ⟨name, .free, signature, doc⟩

def creation : Member :=
  ⟨"__new__", .creation, some "($type, *args, **kwargs)",
    some "Create and return a new object.  See help(type) for accurate signature."⟩

def property (name : String) (doc : Option String) : Member := ⟨name, .property, none, doc⟩

def field (name : String) (doc : Option String) : Member := ⟨name, .field, none, doc⟩

def documentation : Member := ⟨"__doc__", .documentation, none, none⟩

def nothing (name : String) : Member := ⟨name, .nothing, none, none⟩

end Member

end TierHost.Template
