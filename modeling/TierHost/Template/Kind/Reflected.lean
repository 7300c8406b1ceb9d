import TierHost.Template.Kind.Member

/-!
What members have as members themselves, standing alone or bound to a value.
-/

namespace TierHost.Template.Member

/-- The members of operators, in the order in which a table lists them. -/
def ofOperator : List Member := [
  operator "__repr__", operator "__call__", operator "__getattribute__", operator "__get__",
  method "__reduce__" none none,
  field "__objclass__" none,
  field "__name__" none,
  property "__doc__" none,
  property "__qualname__" none,
  property "__text_signature__" none]

/-- The members of methods, in the order in which a table lists them. -/
def ofMethod : List Member := [
  operator "__repr__", operator "__call__", operator "__getattribute__", operator "__get__",
  method "__reduce__" none none,
  field "__objclass__" none,
  field "__name__" none,
  property "__doc__" none,
  property "__qualname__" none,
  property "__text_signature__" none]

/-- The members of shared methods, in the order in which a table lists them. -/
def ofShared : List Member := [
  operator "__repr__", operator "__call__", operator "__getattribute__", operator "__get__",
  field "__objclass__" none,
  field "__name__" none,
  property "__doc__" none,
  property "__qualname__" none,
  property "__text_signature__" none]

/-- The members of free methods, in the order in which a table lists them. -/
def ofFree : List Member := [
  creation, operator "__repr__", operator "__call__", operator "__get__", operator "__init__",
  field "__func__" none,
  field "__wrapped__" none,
  property "__isabstractmethod__" none,
  property "__dict__" none,
  documentation]

/-- The members of properties, in the order in which a table lists them. -/
def ofProperty : List Member := [
  operator "__repr__", operator "__getattribute__", operator "__get__", operator "__set__",
  operator "__delete__",
  field "__objclass__" none,
  field "__name__" none,
  property "__doc__" none,
  property "__qualname__" none]

/-- The members of fields, in the order in which a table lists them. -/
def ofField : List Member := [
  operator "__repr__", operator "__getattribute__", operator "__get__", operator "__set__",
  operator "__delete__",
  method "__reduce__" none none,
  field "__objclass__" none,
  field "__name__" none,
  property "__doc__" none,
  property "__qualname__" none]

/-- The members of operators bound to a value, in the order in which a table lists them. -/
def ofBoundOperator : List Member := [
  operator "__repr__", operator "__hash__", operator "__call__", operator "__getattribute__",
  operator "__lt__", operator "__le__", operator "__eq__", operator "__ne__", operator "__gt__",
  operator "__ge__",
  method "__reduce__" none none,
  field "__self__" none,
  property "__objclass__" none,
  property "__name__" none,
  property "__qualname__" none,
  property "__doc__" none,
  property "__text_signature__" none]

/-- The members of methods bound to a value, in the order in which a table lists them. -/
def ofBoundMethod : List Member := [
  operator "__repr__", operator "__hash__", operator "__call__", operator "__getattribute__",
  operator "__lt__", operator "__le__", operator "__eq__", operator "__ne__", operator "__gt__",
  operator "__ge__",
  method "__reduce__" none none,
  field "__module__" none,
  property "__doc__" none,
  property "__name__" none,
  property "__qualname__" none,
  property "__self__" none,
  property "__text_signature__" none]

end TierHost.Template.Member
