import TierHost.Tier.Layout
import TierHost.Tier.Rename

/-!
The source unit of a generated class: an empty partial class that derives from the class of the tier
below.
-/

namespace TierHost

/-- A source unit, the name a host stores it under, and the class it declares. -/
structure Source where
  hint : String
  text : String
  spec : Spec
  deriving DecidableEq, Repr

def Spec.commands (s : Spec) : List Layout.Command := [
  .line "// <auto-generated/>", .blank 1,
  .line "#nullable enable", .blank 1,
  .line ("namespace " ++ s.space ++ ";"), .blank 1,
  .line ("using " ++ s.baseSpace ++ ";"), .blank 1,
  .line ("public partial class " ++ s.type),
  .indent, .line (": " ++ s.baseType), .dedent,
  .block none []]

def Spec.render (s : Spec) : String := ((Layout.empty Layout.usualUnit).runAll s.commands).written

def Source.ofSpec (config : Config) (s : Spec) : Source := ⟨s.type ++ config.extension, s.render, s⟩

end TierHost
