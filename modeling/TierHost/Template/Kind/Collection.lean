import TierHost.Template.Kind.Member

/-!
What groups, tables and kinds with an index have as members.
-/

namespace TierHost.Template.Member

def groupDoc : String :=
  "Built-in immutable sequence.\n\nIf no argument is given, the constructor returns an empty " ++
  "tuple.\nIf iterable is specified the tuple is initialized from iterable's items.\n\nIf the " ++
  "argument is a tuple, the return value is the same object."

/-- The members of groups, in the order in which a table lists them. -/
def ofGroup : List Member := [
  creation, operator "__repr__", operator "__hash__", operator "__getattribute__",
  operator "__lt__", operator "__le__", operator "__eq__", operator "__ne__", operator "__gt__",
  operator "__ge__", operator "__iter__", operator "__len__", operator "__getitem__",
  operator "__add__", operator "__mul__", operator "__rmul__", operator "__contains__",
  method "__getnewargs__" "($self, /)" none,
  method "index" "($self, value, start=0, stop=sys.maxsize, /)"
    "Return first index of value.\n\nRaises ValueError if the value is not present.",
  method "count" "($self, value, /)" "Return number of occurrences of value.",
  shared "__class_getitem__" none "See PEP 585",
  documentation]

/-- The members of tables, in the order in which a table lists them. -/
def ofTable : List Member := [
  creation, operator "__repr__", operator "__str__", operator "__getattribute__",
  operator "__lt__", operator "__le__", operator "__eq__", operator "__ne__", operator "__gt__",
  operator "__ge__", operator "__iter__", operator "__or__", operator "__ror__",
  operator "__ior__", operator "__len__", operator "__getitem__", operator "__contains__",
  method "get" none "D.get(k[,d]) -> D[k] if k in D, else d.  d defaults to None.",
  method "keys" none "D.keys() -> a set-like object providing a view on D's keys",
  method "values" none "D.values() -> an object providing a view on D's values",
  method "items" none "D.items() -> a set-like object providing a view on D's items",
  method "copy" none "D.copy() -> a shallow copy of D",
  shared "__class_getitem__" none "See PEP 585",
  method "__reversed__" none "D.__reversed__() -> reverse iterator",
  documentation, nothing "__hash__"]

def indexedDoc : String :=
  "Represent a PEP 585 generic type\n\nE.g. for t = list[int], t.__origin__ is list and " ++
  "t.__args__ is (int,)."

/-- The members of kinds with an index, in the order in which a table lists them. -/
def ofIndexed : List Member := [
  creation, operator "__repr__", operator "__hash__", operator "__call__",
  operator "__getattribute__", operator "__lt__", operator "__le__", operator "__eq__",
  operator "__ne__", operator "__gt__", operator "__ge__", operator "__iter__", operator "__or__",
  operator "__ror__", operator "__getitem__",
  method "__mro_entries__" none none,
  method "__instancecheck__" none none,
  method "__subclasscheck__" none none,
  method "__reduce__" none none,
  method "__dir__" none none,
  field "__origin__" none,
  field "__args__" none,
  field "__unpacked__" none,
  property "__parameters__" "Type variables in the GenericAlias.",
  property "__typing_unpacked_tuple_args__" none,
  documentation]

end TierHost.Template.Member
