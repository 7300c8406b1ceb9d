import TierHost.Tier.Chain
import TierHost.Tier.Failure

/-!
The name of the class that carries a test class up one tier: the tier's token moves up wherever it
occurs, and at the root the assembly's name and the token are put in once each.
-/

namespace TierHost

open Text

/-- The class to emit and the class it derives from. -/
structure Spec where
  space : String
  type : String
  baseSpace : String
  baseType : String
  deriving DecidableEq, Repr

namespace Rename

/-- A qualified name's namespace, without the global mark, and its simple name. -/
def split (mark qualified : String) : Except Failure (String × String) :=
  match splitAtLast '.' qualified.toList with
  | some (space, simple) =>
    .ok (String.ofList (dropLeading mark.toList space), String.ofList simple)
  | none => .error (.noNamespace qualified)

def lift (config : Config) (chain : Chain) (candidate : String) : String :=
  let name := candidate.toList
  String.ofList <|
    if chain.followsRoot then
      -- both go in where they first occur, which need not be in the simple name
      let name := replaceFirst chain.previousAssembly.toList chain.currentAssembly.toList name
      let suffix := config.suffix.toList
      replaceFirst suffix (chain.currentToken.toList ++ suffix) name
    else replaceAll chain.previousToken.toList chain.currentToken.toList name

def spec (config : Config) (chain : Chain) (candidate : String) : Except Failure Spec := do
  let (baseSpace, baseType) ← split config.mark candidate
  let (space, type) ← split config.mark (lift config chain candidate)
  return ⟨space, type, baseSpace, baseType⟩

end Rename

end TierHost
