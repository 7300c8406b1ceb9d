import TierHost.Text.Numeral

/-!
Places in source files.
-/

namespace TierHost

/-- A place: a file, a line and a column, counted from one; zero means that it is not known. -/
structure Location where
  file : String
  line : Int
  column : Int
  deriving DecidableEq, Repr

namespace Location

def unknown : Location := ⟨"", 0, 0⟩

/-- The written place; a column that is not known is left out. -/
def text? (l : Location) : Option String := do
  let front := l.file ++ ":" ++ (← Text.write? l.line)
  if l.column = 0 then return front else return front ++ ":" ++ (← Text.write? l.column)

end Location

end TierHost
