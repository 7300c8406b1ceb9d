import TierHost.Template.Kind.Member

/-!
What every object has as members, what kinds have, and what nothing has.
-/

namespace TierHost.Template.Member

def objectDoc : String :=
  "The base class of the class hierarchy.\n\nWhen called, it accepts no arguments and returns " ++
  "a new featureless\ninstance that has no instance attributes and cannot be given any.\n"

/-- The members of objects, in the order in which a table lists them. -/
def ofObject : List Member := [
  creation, operator "__repr__", operator "__hash__", operator "__str__",
  operator "__getattribute__", operator "__setattr__", operator "__delattr__", operator "__lt__",
  operator "__le__", operator "__eq__", operator "__ne__", operator "__gt__", operator "__ge__",
  operator "__init__",
  method "__reduce_ex__" "($self, protocol, /)" "Helper for pickle.",
  method "__reduce__" "($self, /)" "Helper for pickle.",
  method "__getstate__" "($self, /)" "Helper for pickle.",
  shared "__subclasshook__" none
    ("Abstract classes can override this to customize issubclass().\n\nThis is invoked early " ++
    "on by abc.ABCMeta.__subclasscheck__().\nIt should return True, False or NotImplemented.  " ++
    "If it returns\nNotImplemented, the normal algorithm is used.  Otherwise, it\noverrides " ++
    "the normal algorithm (and the outcome is cached).\n"),
  shared "__init_subclass__" none
    ("This method is called when a class is subclassed.\n\nThe default implementation does " ++
    "nothing. It may be\noverridden to extend subclasses.\n"),
  method "__format__" "($self, format_spec, /)" "Default object formatter.",
  method "__sizeof__" "($self, /)" "Size of object in memory, in bytes.",
  method "__dir__" "($self, /)" "Default dir() implementation.",
  property "__class__" "the object's class",
  documentation]

def kindsDoc : String :=
  "type(object) -> the object's type\ntype(name, bases, dict, **kwds) -> a new type"

/-- The members of kinds, in the order in which a table lists them. -/
def ofKinds : List Member := [
  creation, operator "__repr__", operator "__call__", operator "__getattribute__",
  operator "__setattr__", operator "__delattr__", operator "__init__", operator "__or__",
  operator "__ror__",
  method "mro" "($self, /)" "Return a type's method resolution order.",
  method "__subclasses__" "($self, /)" "Return a list of immediate subclasses.",
  shared "__prepare__" none
    "__prepare__() -> dict\nused to create the namespace for the class statement",
  method "__instancecheck__" "($self, instance, /)" "Check if an object is an instance.",
  method "__subclasscheck__" "($self, subclass, /)" "Check if a class is a subclass.",
  method "__dir__" "($self, /)" "Specialized __dir__ implementation for types.",
  method "__sizeof__" "($self, /)" "Return memory consumption of the type object.",
  field "__basicsize__" none,
  field "__itemsize__" none,
  field "__flags__" none,
  field "__weakrefoffset__" none,
  field "__base__" none,
  field "__dictoffset__" none,
  field "__mro__" none,
  property "__name__" none,
  property "__qualname__" none,
  property "__bases__" none,
  property "__module__" none,
  property "__abstractmethods__" none,
  property "__dict__" none,
  property "__doc__" none,
  property "__text_signature__" none,
  property "__annotations__" none]

/-- The members of nothing, in the order in which a table lists them. -/
def ofAbsent : List Member := [
  creation, operator "__repr__", operator "__bool__", documentation]

end TierHost.Template.Member
