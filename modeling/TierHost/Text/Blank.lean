import TierHost.Text.Ranges

/-!
Blank characters and the trimming of text. All Unicode spaces and the separator controls count as
blank, a zero-width space does not.
-/

namespace TierHost.Text

def blanks : Ranges := [
  (0x9, 0xd), (0x1c, 0x20), (0x85, 0x85), (0xa0, 0xa0), (0x1680, 0x1680), (0x2000, 0x200a),
  (0x2028, 0x2029), (0x202f, 0x202f), (0x205f, 0x205f), (0x3000, 0x3000)
]

def isBlank (c : Char) : Bool := blanks.has c

/-- Removes a margin of characters in the class from both ends. -/
def trimBy (p : Char → Bool) (s : List Char) : List Char :=
  ((s.dropWhile p).reverse.dropWhile p).reverse

def trim (s : String) : String := String.ofList (trimBy isBlank s.toList)

def allBlank (s : String) : Bool := s.toList.all isBlank

end TierHost.Text
