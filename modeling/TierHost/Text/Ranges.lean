/-!
Sets of code points given by ranges, as character classes are tabulated.
-/

namespace TierHost.Text

/-- A set of code points: closed ranges. -/
abbrev Ranges := List (Nat × Nat)

def Ranges.has (r : Ranges) (c : Char) : Bool :=
  r.any fun (first, last) => first ≤ c.toNat && c.toNat ≤ last

end TierHost.Text
