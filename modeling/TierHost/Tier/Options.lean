import TierHost.Listing
import TierHost.Text.Numeral
import TierHost.Text.Occurrence
import TierHost.Tier.Failure
import TierHost.Value

/-!
Configurations from host options. An option belongs to the generator if its key, after an optional
mark of build properties, starts with the generator's own mark; the rest of the key names a field.
-/

namespace TierHost

open Text

/-- A field that an option may set. -/
inductive Config.Field where
  | product
  | segment
  | language
  | baseline
  | suffix
  | mark
  | extension
  | workers
  | cacheSize
  deriving DecidableEq, Repr

namespace Config

def Field.all : List Field :=
  [.product, .segment, .language, .baseline, .suffix, .mark, .extension, .workers, .cacheSize]

def Field.name : Field → String
  | .product => "product"
  | .segment => "test_assembly_segment"
  | .language => "language_prefix"
  | .baseline => "baseline_tier"
  | .suffix => "test_class_suffix"
  | .mark => "global_prefix"
  | .extension => "hint_extension"
  | .workers => "max_workers"
  | .cacheSize => "cache_size"

def Field.ofName? (s : String) : Option Field := Field.all.find? fun f => f.name = s

def Field.isWhole : Field → Bool
  | .baseline | .workers | .cacheSize => true
  | _ => false

def setText (c : Config) (s : String) : Field → Config
  | .product => { c with product := s }
  | .segment => { c with segment := s }
  | .language => { c with language := s }
  | .suffix => { c with suffix := s }
  | .mark => { c with mark := s }
  | .extension => { c with extension := s }
  | .baseline | .workers | .cacheSize => c

def setWhole (c : Config) (n : Int) : Field → Config
  | .baseline => { c with baseline := n }
  | .workers => { c with workers := n }
  | .cacheSize => { c with cacheSize := n }
  | _ => c

def value (c : Config) : Field → Value
  | .product => .text c.product
  | .segment => .text c.segment
  | .language => .text c.language
  | .baseline => .whole c.baseline
  | .suffix => .text c.suffix
  | .mark => .text c.mark
  | .extension => .text c.extension
  | .workers => .whole c.workers
  | .cacheSize => .whole c.cacheSize

/-- What may stand in front of a key that comes from a build property. -/
def propertyMark : String := "build_property."

def optionMark : String := "testmirror_"

def optionName? (key : String) : Option String :=
  let key := dropLeading propertyMark.toList key.toList
  let mark := optionMark.toList
  if mark.isPrefixOf key then some (String.ofList (key.drop mark.length)) else none

/-- Why an option cannot be read: a failure that is about the option, or a number that has no text. -/
inductive OptionError where
  | failed (failure : Failure)
  | unwritable
  deriving DecidableEq, Repr

/-- A field for numbers that is given a value whose text is no number. The failure quotes the value, which
may have no text at all. -/
def refused (key : String) (value : Value) : OptionError :=
  match value.literal? with
  | some literal => .failed (.notInteger key literal)
  | none => .unwritable

def apply (c : Config) (key : String) (value : Value) : Except OptionError Config :=
  match optionName? key with
  | none => .ok c
  | some name =>
    match Field.ofName? name with
    | none => .error (.failed (.unknownOption key))
    | some field =>
      let text? := value.display?.map trim
      if field.isWhole then
        match text?.map fun text => Numeral.read text.toList with
        | some (.value n) => .ok (c.setWhole n field)
        | _ => .error (refused key value)
      else match text? with
        | some text => .ok (c.setText text field)
        | none => .error .unwritable

/-- The configuration that options make of a base; later options win. -/
def withOptions (base : Config) (options : Listing String Value) : Except OptionError Config :=
  options.foldlM (fun c option => c.apply option.1 option.2) base

end Config

end TierHost
