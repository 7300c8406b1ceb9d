import TierHost.Text.Numeral
import TierHost.Text.Quoted

/-!
Why a message template cannot be filled.
-/

namespace TierHost.Template

/-- A fault in the text of a template or of a format code. -/
inductive Malformed where
  | strayOpen
  | strayClose
  | unclosedField
  | braceInName
  | noConversion
  | colonExpected
  | unclosedSpec
  | unknownConversion (c : Char)
  | tooDeep
  | manualToAutomatic
  | automaticToManual
  | tooManyDigits
  | emptyAttribute
  | missingBracket
  | strayAfterBracket
  | invalidSpec (spec type : String)
  | missingPrecision
  | bothSeparators
  | separatorWith (separator code : Char)
  | unknownCode (code : Char) (type : String)
  | signOnText
  | spaceOnText
  | zeroCoercionOnText
  | alternateOnText
  | innerAlignOnText
  | precisionTooBig
  | precisionOnWhole
  | zeroCoercionOnWhole
  | signOnCharacter
  | alternateOnCharacter
  deriving DecidableEq, Repr

/-- A printable ASCII character below the limit as itself, any other by its code point. -/
def codeText (limit : Nat) (c : Char) : String :=
  if 32 < c.toNat && c.toNat < limit then c.toString
  else "\\x" ++ String.ofList (Nat.toDigits 16 c.toNat)

def Malformed.message : Malformed → String
  | .strayOpen => "Single '\x7b' encountered in format string"
  | .strayClose => "Single '\x7d' encountered in format string"
  | .unclosedField => "expected '\x7d' before end of string"
  | .braceInName => "unexpected '\x7b' in field name"
  | .noConversion => "end of string while looking for conversion specifier"
  | .colonExpected => "expected ':' after conversion specifier"
  | .unclosedSpec => "unmatched '\x7b' in format spec"
  | .unknownConversion c => "Unknown conversion specifier " ++ codeText 127 c
  | .tooDeep => "Max string recursion exceeded"
  | .manualToAutomatic =>
    "cannot switch from manual field specification to automatic field numbering"
  | .automaticToManual =>
    "cannot switch from automatic field numbering to manual field specification"
  | .tooManyDigits => "Too many decimal digits in format string"
  | .emptyAttribute => "Empty attribute in format string"
  | .missingBracket => "Missing ']' in format string"
  | .strayAfterBracket => "Only '.' or '[' may follow ']' in format field specifier"
  | .invalidSpec spec type =>
    "Invalid format specifier '" ++ spec ++ "' for object of type '" ++ type ++ "'"
  | .missingPrecision => "Format specifier missing precision"
  | .bothSeparators => "Cannot specify both ',' and '_'."
  | .separatorWith separator code =>
    "Cannot specify '" ++ separator.toString ++ "' with '" ++ codeText 128 code ++ "'."
  | .unknownCode code type =>
    "Unknown format code '" ++ codeText 128 code ++ "' for object of type '" ++ type ++ "'"
  | .signOnText => "Sign not allowed in string format specifier"
  | .spaceOnText => "Space not allowed in string format specifier"
  | .zeroCoercionOnText => "Negative zero coercion (z) not allowed in string format specifier"
  | .alternateOnText => "Alternate form (#) not allowed in string format specifier"
  | .innerAlignOnText => "'=' alignment not allowed in string format specifier"
  | .precisionTooBig => "precision too big"
  | .precisionOnWhole => "Precision not allowed in integer format specifier"
  | .zeroCoercionOnWhole => "Negative zero coercion (z) not allowed in integer format specifier"
  | .signOnCharacter => "Sign not allowed with integer format specifier 'c'"
  | .alternateOnCharacter => "Alternate form (#) not allowed with integer format specifier 'c'"

/-- Why a template cannot be filled with given values. -/
inductive Error where
  | malformed (fault : Malformed)
  | outOfRange (index : Nat)
  | noCharacter
  | unknownName (name : String)
  | noAttribute (type name : String)
  | noKindAttribute (kind name : String)
  | textualIndex
  | notIndexable (type : String)
  | kindNotIndexable (kind : String)
  | noItem
  | textualPosition
  | unknownNumber (n : Nat)
  | notGeneric (kind : String)
  | unset (name : String)
  | unsupportedSpec (type : String)
  | notCodePoint
  | beyondWord
  | beyondReal
  | unwritable
  deriving DecidableEq, Repr

def Error.message : Error → String
  | .malformed fault => fault.message
  | .outOfRange index =>
    "Replacement index " ++ toString index ++ " out of range for positional args tuple"
  | .noCharacter => "string index out of range"
  | .unknownName name => Text.literal name
  | .noAttribute type name => "'" ++ type ++ "' object has no attribute '" ++ name ++ "'"
  | .noKindAttribute kind name =>
    "type object '" ++ kind ++ "' has no attribute '" ++ name ++ "'"
  | .textualIndex => "string indices must be integers, not 'str'"
  | .notIndexable type => "'" ++ type ++ "' object is not subscriptable"
  | .kindNotIndexable kind => "type '" ++ kind ++ "' is not subscriptable"
  | .noItem => "tuple index out of range"
  | .textualPosition => "tuple indices must be integers or slices, not str"
  | .unknownNumber n => toString n
  | .notGeneric kind => kind ++ " is not a generic class"
  | .unset name => name
  | .unsupportedSpec type => "unsupported format string passed to " ++ type ++ ".__format__"
  | .notCodePoint => "%c arg not in range(0x110000)"
  | .beyondWord => "Python int too large to convert to C long"
  | .beyondReal => "int too large to convert to float"
  | .unwritable => Text.unwritable

/-- A text, which is missing if a number in it has too many digits. -/
def written : Option String → Except Error String
  | some s => .ok s
  | none => .error .unwritable

end TierHost.Template
