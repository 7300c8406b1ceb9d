import TierHost.Text.Blank

/-!
Line-wise layout of source text: indented lines, blank lines, and blocks in braces.
-/

namespace TierHost

/-- The text written so far, and the indentation of the next line. -/
structure Layout where
  unit : String
  level : Nat
  written : String
  deriving DecidableEq, Repr

/-- What can be laid out. A count of blank lines below zero stands for none. -/
inductive Layout.Command where
  | line (code : String)
  | blank (count : Int)
  | indent
  | dedent
  | block (header : Option String) (body : List Layout.Command)
  deriving Inhabited, Repr

namespace Layout

/-- Nothing written yet, with no indentation. -/
def empty (unit : String) : Layout := ⟨unit, 0, ""⟩

/-- The usual indentation of one level. -/
def usualUnit : String := "    "

/-- Writes a line; one without visible text is left empty. -/
def line (l : Layout) (code : String) : Layout :=
  let body := if Text.allBlank code then "" else String.join (List.replicate l.level l.unit) ++ code
  { l with written := l.written ++ body ++ "\n" }

def blank (l : Layout) (count : Int) : Layout :=
  { l with written := l.written ++ String.join (List.replicate count.toNat "\n") }

def indent (l : Layout) : Layout := { l with level := l.level + 1 }

def dedent (l : Layout) : Layout := { l with level := l.level - 1 }

def openBlock (l : Layout) (header : Option String) : Layout :=
  ((header.elim l l.line).line "\x7b").indent

def closeBlock (l : Layout) : Layout := l.dedent.line "\x7d"

mutual

/-- The layouts after each step of a command; a block steps at its opening, in its body, and at its
closing. -/
def states (l : Layout) : Command → List Layout
  | .line code => [l.line code]
  | .blank count => [l.blank count]
  | .indent => [l.indent]
  | .dedent => [l.dedent]
  | .block header body =>
    let opened := l.openBlock header
    let inside := statesAll opened body
    opened :: inside ++ [(inside.getLastD opened).closeBlock]

def statesAll (l : Layout) : List Command → List Layout
  | [] => []
  | c :: cs =>
    let here := states l c
    here ++ statesAll (here.getLastD l) cs

end

def runAll (l : Layout) (cs : List Command) : Layout := (l.statesAll cs).getLastD l

end Layout

end TierHost
