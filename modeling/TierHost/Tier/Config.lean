import TierHost.Text.Quoted

/-!
The configuration of the generator: how test assemblies, tiers and test classes are named, and when
a configuration is usable.
-/

namespace TierHost

/-- A configuration. Its workers say how many candidates may be emitted at a time, which no sources depend
on; its cache size is for hosts that keep a cache. -/
structure Config where
  product : String
  segment : String
  language : String
  baseline : Int
  suffix : String
  mark : String
  extension : String
  workers : Int
  cacheSize : Int
  deriving DecidableEq, Repr

namespace Config

def default : Config where
  product := "StyleCop.Analyzers"
  segment := "Test"
  language := "CSharp"
  baseline := 7
  suffix := "UnitTests"
  mark := "global::"
  extension := ".cs"
  workers := 1
  cacheSize := 64

def rootAssembly (c : Config) : String := c.product ++ "." ++ c.segment

/-- What makes a configuration unusable. -/
inductive Problem where
  | product (value : String)
  | segment
  | language
  | baseline
  | suffix
  | workers
  | cacheSize
  deriving DecidableEq, Repr

def Problem.message : Problem → String
  | .product value => "product must be a dotted identifier, got " ++ Text.literal value
  | .segment => "test_assembly_segment must be a dotted identifier"
  | .language => "language_prefix must be letters or underscores only"
  | .baseline => "baseline_tier must be positive"
  | .suffix => "test_class_suffix must not be empty"
  | .workers => "max_workers must be positive"
  | .cacheSize => "cache_size must be non-negative"

def isNameStart (c : Char) : Bool := c.isAlpha || c = '_'

/-- A character that may follow the first of an identifier. -/
def isNameChar (c : Char) : Bool := isNameStart c || c.isDigit

/-- Whether a text is made of identifiers with single points between them; `started` tells whether
the current identifier has begun. One line feed may follow at the end. -/
def isPathFrom : Bool → List Char → Bool
  | started, [] => started
  | started, c :: cs =>
    if c = '\n' && cs.isEmpty then started
    else if started then
      if c = '.' then isPathFrom false cs else isNameChar c && isPathFrom true cs
    else isNameStart c && isPathFrom true cs

/-- Whether a text is a dotted identifier; one line feed may follow. -/
def isIdentifierPath (s : String) : Bool := isPathFrom false s.toList

/-- Whether a text is a word of letters and underscores; one line feed may follow. -/
def isWord (s : String) : Bool :=
  let body := match s.toList.reverse with
    | '\n' :: rest => rest
    | cs => cs
  !body.isEmpty && body.all isNameStart

/-- The problems of a configuration, in the order of its fields. -/
def problems (c : Config) : List Problem :=
  (if isIdentifierPath c.product then [] else [.product c.product]) ++
  (if isIdentifierPath c.segment then [] else [.segment]) ++
  (if isWord c.language then [] else [.language]) ++
  (if c.baseline ≤ 0 then [.baseline] else []) ++
  (if c.suffix.isEmpty then [.suffix] else []) ++
  (if c.workers ≤ 0 then [.workers] else []) ++
  (if c.cacheSize < 0 then [.cacheSize] else [])

end Config

end TierHost
