/-!
Wildcard patterns for whole paths: `*` and `?` match any characters, the slash included, and
brackets hold a class of characters with ranges, negated by a leading exclamation mark.
-/

namespace TierHost.Text.Wildcard

/-- A member of a character class. -/
inductive Member where
  | single (c : Char)
  | range (first last : Char)
  deriving DecidableEq, Repr

/-- One unit of a pattern. -/
inductive Piece where
  | any
  | star
  | exactly (c : Char)
  | oneOf (negated : Bool) (members : List Member)
  deriving DecidableEq, Repr

def Member.has (c : Char) : Member → Bool
  | .single d => c == d
  | .range first last => first ≤ c && c ≤ last

/-- Splits the body of a class after an opening bracket: an exclamation mark and then a closing
bracket may stand at its front, and the next closing bracket ends it. -/
def classBody? (cs : List Char) : Option (List Char × List Char) :=
  let (mark, rest) := match cs with
    | '!' :: rest => (['!'], rest)
    | _ => ([], cs)
  let (bracket, rest) := match rest with
    | ']' :: rest => ([']'], rest)
    | _ => ([], rest)
  match rest.dropWhile (· != ']') with
  | [] => none
  | _ :: after => some (mark ++ bracket ++ rest.takeWhile (· != ']'), after)

/-- Cuts a class body at its range hyphens. The first `skip` characters hold none, and after a cut
the two characters that follow hold none. -/
def chunks (skip : Nat) : List Char → List (List Char)
  | [] => [[]]
  | c :: cs =>
    match skip with
    | skip + 1 => match chunks skip cs with
      | [] => [[c]]
      | p :: ps => (c :: p) :: ps
    | 0 =>
      if c = '-' then [] :: chunks 2 cs
      else match chunks 0 cs with
        | [] => [[c]]
        | p :: ps => (c :: p) :: ps

/-- A hyphen that ends the body belongs to the chunk before it. -/
def keepFinalHyphen : List (List Char) → List (List Char)
  | [chunk, []] => [chunk ++ ['-']]
  | chunk :: rest => chunk :: keepFinalHyphen rest
  | [] => []

/-- Joins chunks, from the last to the first, whose range would be empty; both ends vanish. -/
def dropEmptyRanges : List (List Char) → List (List Char)
  | [] => []
  | chunk :: rest =>
    match chunk.getLast?, dropEmptyRanges rest with
    | some last, (first :: tail) :: more =>
      if first < last then (chunk.dropLast ++ tail) :: more
      else chunk :: (first :: tail) :: more
    | _, rest => chunk :: rest

/-- The members that chunks denote: a range between neighbours, single characters elsewhere. -/
def members : List (List Char) → List Member
  | [] => []
  | chunk :: rest =>
    match chunk.getLast?, rest with
    | some last, (first :: tail) :: more =>
      chunk.dropLast.map .single ++ .range last first :: members (tail :: more)
    | _, rest => chunk.map .single ++ members rest
termination_by cs => cs.length

/-- The class that a body denotes: a mark that is left in front negates it, and a range hyphen that
follows the mark is a member. -/
def classOf (body : List Char) : Piece :=
  let skip := if body.head? = some '!' then 2 else 1
  let parts := dropEmptyRanges (keepFinalHyphen (chunks skip body))
  match parts with
  | ['!'] :: chunk :: rest => .oneOf true (members (('-' :: chunk) :: rest))
  | ('!' :: chunk) :: rest =>
    let inside := members (chunk :: rest)
    if inside.isEmpty then .any else .oneOf true inside
  | parts => .oneOf false (members parts)

def readBy : Nat → List Char → List Piece
  | 0, _ => []
  | _, [] => []
  | fuel + 1, c :: cs =>
    if c = '*' then .star :: readBy fuel cs
    else if c = '?' then .any :: readBy fuel cs
    else if c = '[' then
      match classBody? cs with
      | some (body, after) => classOf body :: readBy fuel after
      | none => .exactly '[' :: readBy fuel cs
    else .exactly c :: readBy fuel cs

def read (pattern : List Char) : List Piece := readBy pattern.length pattern

/-- Whether a unit other than a star matches a character. -/
def Piece.holds (c : Char) : Piece → Bool
  | .any | .star => true
  | .exactly d => c == d
  | .oneOf negated inside => inside.any (·.has c) != negated

/-- Which ends of a text, from the whole text to the empty one, a unit and what follows it match,
given which ends match what follows. A star matches an end if some shorter end, or the same, matches
what follows; another unit takes one character. -/
def Piece.before (s : List Char) (p : Piece) (ends : List Bool) : List Bool :=
  match p with
  | .star => ends.foldr (fun here later => (here || later.headD false) :: later) []
  | p => List.zipWith (fun c later => p.holds c && later) s ends.tail ++ [false]

/-- Whether the pieces match the whole text. After the last piece, only the empty end matches. -/
def accepts (ps : List Piece) (s : List Char) : Bool :=
  (ps.foldr (Piece.before s) (s.map (fun _ => false) ++ [true])).headD false

end TierHost.Text.Wildcard

namespace TierHost.Text

def matchesWildcard (pattern s : String) : Bool :=
  Wildcard.accepts (Wildcard.read pattern.toList) s.toList

end TierHost.Text
