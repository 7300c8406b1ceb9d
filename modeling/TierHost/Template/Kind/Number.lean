import TierHost.Template.Kind.Member

/-!
What whole numbers, flags and real numbers have as members, with the text that describes each.
-/

namespace TierHost.Template.Member

def wholeDoc : String :=
  "int([x]) -> integer\nint(x, base=10) -> integer\n\nConvert a number or string to an " ++
  "integer, or return 0 if no arguments\nare given.  If x is a number, return x.__int__().  " ++
  "For floating point\nnumbers, this truncates towards zero.\n\nIf x is not a number or if " ++
  "base is given, then x must be a string,\nbytes, or bytearray instance representing an " ++
  "integer literal in the\ngiven base.  The literal can be preceded by '+' or '-' and be " ++
  "surrounded\nby whitespace.  The base defaults to 10.  Valid bases are 0 and 2-36.\nBase 0 " ++
  "means to interpret the base from the string as an integer literal.\n>>> int('0b100', " ++
  "base=0)\n4"

/-- The members of whole numbers, in the order in which a table lists them. -/
def ofWhole : List Member := [
  creation, operator "__repr__", operator "__hash__", operator "__getattribute__",
  operator "__lt__", operator "__le__", operator "__eq__", operator "__ne__", operator "__gt__",
  operator "__ge__", operator "__add__", operator "__radd__", operator "__sub__",
  operator "__rsub__", operator "__mul__", operator "__rmul__", operator "__mod__",
  operator "__rmod__", operator "__divmod__", operator "__rdivmod__", operator "__pow__",
  operator "__rpow__", operator "__neg__", operator "__pos__", operator "__abs__",
  operator "__bool__", operator "__invert__", operator "__lshift__", operator "__rlshift__",
  operator "__rshift__", operator "__rrshift__", operator "__and__", operator "__rand__",
  operator "__xor__", operator "__rxor__", operator "__or__", operator "__ror__",
  operator "__int__", operator "__float__", operator "__floordiv__", operator "__rfloordiv__",
  operator "__truediv__", operator "__rtruediv__", operator "__index__",
  method "conjugate" none "Returns self, the complex conjugate of any int.",
  method "bit_length" "($self, /)"
    ("Number of bits necessary to represent self in binary.\n\n>>> bin(37)\n'0b100101'\n>>> " ++
    "(37).bit_length()\n6"),
  method "bit_count" "($self, /)"
    ("Number of ones in the binary representation of the absolute value of self.\n\nAlso known " ++
    "as the population count.\n\n>>> bin(13)\n'0b1101'\n>>> (13).bit_count()\n3"),
  method "to_bytes" "($self, /, length=1, byteorder='big', *, signed=False)"
    ("Return an array of bytes representing an integer.\n\n  length\n    Length of bytes " ++
    "object to use.  An OverflowError is raised if the\n    integer is not representable with " ++
    "the given number of bytes.  Default\n    is length 1.\n  byteorder\n    The byte order " ++
    "used to represent the integer.  If byteorder is 'big',\n    the most significant byte is " ++
    "at the beginning of the byte array.  If\n    byteorder is 'little', the most significant " ++
    "byte is at the end of the\n    byte array.  To request the native byte order of the host " ++
    "system, use\n    `sys.byteorder' as the byte order value.  Default is to use 'big'.\n  " ++
    "signed\n    Determines whether two's complement is used to represent the integer.\n    If " ++
    "signed is False and a negative integer is given, an OverflowError\n    is raised."),
  shared "from_bytes" "($type, /, bytes, byteorder='big', *, signed=False)"
    ("Return the integer represented by the given array of bytes.\n\n  bytes\n    Holds the " ++
    "array of bytes to convert.  The argument must either\n    support the buffer protocol or " ++
    "be an iterable object producing bytes.\n    Bytes and bytearray are examples of built-in " ++
    "objects that support the\n    buffer protocol.\n  byteorder\n    The byte order used to " ++
    "represent the integer.  If byteorder is 'big',\n    the most significant byte is at the " ++
    "beginning of the byte array.  If\n    byteorder is 'little', the most significant byte is " ++
    "at the end of the\n    byte array.  To request the native byte order of the host system, " ++
    "use\n    `sys.byteorder' as the byte order value.  Default is to use 'big'.\n  " ++
    "signed\n    Indicates whether two's complement is used to represent the integer."),
  method "as_integer_ratio" "($self, /)"
    ("Return integer ratio.\n\nReturn a pair of integers, whose ratio is exactly equal to the " ++
    "original int\nand with a positive denominator.\n\n>>> (10).as_integer_ratio()\n(10, 1)\n" ++
    ">>> (-10).as_integer_ratio()\n(-10, 1)\n>>> (0).as_integer_ratio()\n(0, 1)"),
  method "__trunc__" none "Truncating an Integral returns itself.",
  method "__floor__" none "Flooring an Integral returns itself.",
  method "__ceil__" none "Ceiling of an Integral returns itself.",
  method "__round__" "($self, ndigits=<unrepresentable>, /)"
    ("Rounding an Integral returns itself.\n\nRounding with an ndigits argument also returns " ++
    "an integer."),
  method "__getnewargs__" "($self, /)" none,
  method "__format__" "($self, format_spec, /)" none,
  method "__sizeof__" "($self, /)" "Returns size in memory, in bytes.",
  property "real" "the real part of a complex number",
  property "imag" "the imaginary part of a complex number",
  property "numerator" "the numerator of a rational number in lowest terms",
  property "denominator" "the denominator of a rational number in lowest terms",
  documentation]

def flagDoc : String :=
  "bool(x) -> bool\n\nReturns True when the argument x is true, False otherwise.\nThe " ++
  "builtins True and False are the only two instances of the class bool.\nThe class bool is a " ++
  "subclass of the class int, and cannot be subclassed."

/-- The members of flags, in the order in which a table lists them. -/
def ofFlag : List Member := [
  creation, operator "__repr__", operator "__and__", operator "__rand__", operator "__xor__",
  operator "__rxor__", operator "__or__", operator "__ror__", documentation]

def realDoc : String :=
  "Convert a string or number to a floating point number, if possible."

/-- The members of real numbers, in the order in which a table lists them. -/
def ofReal : List Member := [
  creation, operator "__repr__", operator "__hash__", operator "__getattribute__",
  operator "__lt__", operator "__le__", operator "__eq__", operator "__ne__", operator "__gt__",
  operator "__ge__", operator "__add__", operator "__radd__", operator "__sub__",
  operator "__rsub__", operator "__mul__", operator "__rmul__", operator "__mod__",
  operator "__rmod__", operator "__divmod__", operator "__rdivmod__", operator "__pow__",
  operator "__rpow__", operator "__neg__", operator "__pos__", operator "__abs__",
  operator "__bool__", operator "__int__", operator "__float__", operator "__floordiv__",
  operator "__rfloordiv__", operator "__truediv__", operator "__rtruediv__",
  method "conjugate" "($self, /)" "Return self, the complex conjugate of any float.",
  method "__trunc__" "($self, /)" "Return the Integral closest to x between 0 and x.",
  method "__floor__" "($self, /)" "Return the floor as an Integral.",
  method "__ceil__" "($self, /)" "Return the ceiling as an Integral.",
  method "__round__" "($self, ndigits=None, /)"
    ("Return the Integral closest to x, rounding half toward even.\n\nWhen an argument is " ++
    "passed, work like built-in round(x, ndigits)."),
  method "as_integer_ratio" "($self, /)"
    ("Return integer ratio.\n\nReturn a pair of integers, whose ratio is exactly equal to the " ++
    "original float\nand with a positive denominator.\n\nRaise OverflowError on infinities and " ++
    "a ValueError on NaNs.\n\n>>> (10.0).as_integer_ratio()\n(10, 1)\n>>> " ++
    "(0.0).as_integer_ratio()\n(0, 1)\n>>> (-.25).as_integer_ratio()\n(-1, 4)"),
  shared "fromhex" "($type, string, /)"
    ("Create a floating-point number from a hexadecimal string.\n\n>>> " ++
    "float.fromhex('0x1.ffffp10')\n2047.984375\n>>> float.fromhex('-0x1p-1074')\n-5e-324"),
  method "hex" "($self, /)"
    ("Return a hexadecimal representation of a floating-point number.\n\n>>> (-0.1).hex()\n" ++
    "'-0x1.999999999999ap-4'\n>>> 3.14159.hex()\n'0x1.921f9f01b866ep+1'"),
  method "is_integer" "($self, /)" "Return True if the float is an integer.",
  method "__getnewargs__" "($self, /)" none,
  shared "__getformat__" "($type, typestr, /)"
    ("You probably don't want to use this function.\n\n  typestr\n    Must be 'double' or " ++
    "'float'.\n\nIt exists mainly to be used in Python's test suite.\n\nThis function returns " ++
    "whichever of 'unknown', 'IEEE, big-endian' or 'IEEE,\nlittle-endian' best describes the " ++
    "format of floating point numbers used by the\nC type named by typestr."),
  method "__format__" "($self, format_spec, /)" "Formats the float according to format_spec.",
  property "real" "the real part of a complex number",
  property "imag" "the imaginary part of a complex number",
  documentation]

end TierHost.Template.Member
