import TierHost.Tier.Layout
import Mathlib.Data.List.Basic

/-!
The layout of text with blocks in it. A run over it writes one row after another, each a level deeper
for every block around it, and ends at the level where it began.
-/

namespace TierHost.Layout

/-- The layout after a command. -/
def run (l : Layout) (c : Command) : Layout := (l.states c).getLastD l

theorem getLastD_append {α : Type*} (xs ys : List α) (d : α) :
    (xs ++ ys).getLastD d = ys.getLastD (xs.getLastD d) := by
  rw [List.getLastD_eq_getLast?, List.getLastD_eq_getLast?, List.getLastD_eq_getLast?,
    List.getLast?_append]
  cases ys.getLast? <;> rfl

theorem runAll_cons (l : Layout) (c : Command) (cs : List Command) :
    l.runAll (c :: cs) = (l.run c).runAll cs := by
  rw [runAll, statesAll, getLastD_append]
  rfl

theorem run_block (l : Layout) (header : Option String) (body : List Command) :
    l.run (.block header body) = ((l.openBlock header).runAll body).closeBlock := by
  rw [run, states, List.getLastD_concat]
  rfl

/-- Text with blocks in it: a block that is opened is closed behind what stands in it. -/
inductive Item where
  | line (code : String)
  | blank (count : Int)
  | block (header : Option String) (body : List Item)

/-- A line of text, and the number of blocks around it. -/
structure Row where
  depth : Nat
  text : String

namespace Row

/-- Whether there is anything to be seen in a row. -/
def Visible (row : Row) : Prop := ∃ c ∈ row.text.toList, Text.isBlank c = false

instance (row : Row) : Decidable row.Visible := List.decidableBEx _ _

/-- A row as it is written where text outside all blocks stands at `level`: behind its indentation, or as
an empty line if there is nothing to be seen. -/
def written (unit : String) (level : Nat) (row : Row) : String :=
  if row.Visible then String.join (List.replicate (level + row.depth) unit) ++ row.text ++ "\n"
  else "\n"

theorem visible_iff {row : Row} : row.Visible ↔ ¬ Text.allBlank row.text = true := by
  rw [Visible, Text.allBlank, List.all_eq_true]
  simp only [not_forall, exists_prop, Bool.not_eq_true]

theorem written_empty (unit : String) (level depth : Nat) : written unit level ⟨depth, ""⟩ = "\n" := by
  refine if_neg ?_
  rintro ⟨c, hc, -⟩
  rw [String.toList_empty] at hc
  exact List.not_mem_nil hc

end Row

namespace Item

mutual

/-- The command that lays an item out. -/
def command : Item → Command
  | .line code => .line code
  | .blank count => .blank count
  | .block header body => .block header (commandAll body)

def commandAll : List Item → List Command
  | [] => []
  | item :: items => item.command :: commandAll items

end

mutual

/-- The rows of an item that stands in so many blocks. -/
def rows (depth : Nat) : Item → List Row
  | .line code => [⟨depth, code⟩]
  | .blank count => List.replicate count.toNat ⟨depth, ""⟩
  | .block header body =>
    header.toList.map (Row.mk depth) ++
      ⟨depth, "\x7b"⟩ :: rowsAll (depth + 1) body ++ [⟨depth, "\x7d"⟩]

def rowsAll (depth : Nat) : List Item → List Row
  | [] => []
  | item :: items => item.rows depth ++ rowsAll depth items

end

end Item

/-- The layout with rows written behind what it has, where text outside all blocks stands at `base`. -/
def withRows (l : Layout) (base : Nat) (rows : List Row) : Layout :=
  { l with written := l.written ++ String.join (rows.map (Row.written l.unit base)) }

theorem withRows_nil (l : Layout) (base : Nat) : l.withRows base [] = l := by
  rw [withRows, List.map_nil, String.join_nil, String.append_empty]

theorem withRows_append (l : Layout) (base : Nat) (rows more : List Row) :
    l.withRows base (rows ++ more) = (l.withRows base rows).withRows base more := by
  rw [withRows, List.map_append, String.join_append, ← String.append_assoc]
  rfl

variable {l : Layout} {base depth : Nat}

theorem line_eq_withRows (h : l.level = base + depth) (code : String) :
    l.line code = l.withRows base [⟨depth, code⟩] := by
  have hrow : (if Text.allBlank code then "" else
      String.join (List.replicate l.level l.unit) ++ code) ++ "\n" =
        Row.written l.unit base ⟨depth, code⟩ := by
    rw [Row.written, h]
    by_cases hblank : Text.allBlank code = true
    · rw [if_pos hblank, if_neg fun hv => Row.visible_iff.mp hv hblank, String.empty_append]
    · rw [if_neg hblank, if_pos (Row.visible_iff.mpr hblank)]
  rw [line, withRows, List.map_singleton, String.join_cons, String.join_nil, String.append_empty,
    ← hrow, String.append_assoc]

theorem blank_eq_withRows (l : Layout) (base depth : Nat) (count : Int) :
    l.blank count = l.withRows base (List.replicate count.toNat ⟨depth, ""⟩) := by
  rw [blank, withRows, List.map_replicate, Row.written_empty]

theorem openBlock_eq_withRows (h : l.level = base + depth) (header : Option String) :
    l.openBlock header =
      (l.withRows base (header.toList.map (Row.mk depth) ++ [⟨depth, "\x7b"⟩])).indent := by
  have hheader : header.elim l l.line = l.withRows base (header.toList.map (Row.mk depth)) := by
    cases header with
    | none => exact (l.withRows_nil base).symm
    | some code => exact line_eq_withRows h code
  have hlevel : (l.withRows base (header.toList.map (Row.mk depth))).level = base + depth := h
  rw [openBlock, hheader, withRows_append, line_eq_withRows hlevel]

/-- A block closes at the level it was opened at. -/
theorem closeBlock_eq_withRows (h : l.level = base + depth) (rows : List Row) :
    (l.indent.withRows base rows).closeBlock = l.withRows base (rows ++ [⟨depth, "\x7d"⟩]) := by
  have hdedent : (l.indent.withRows base rows).dedent = l.withRows base rows := rfl
  have hlevel : (l.withRows base rows).level = base + depth := h
  rw [closeBlock, hdedent, withRows_append, line_eq_withRows hlevel]

-- Induction on the nesting of blocks. The invariant is that inside `depth` blocks the level is
-- `base + depth`; a block keeps it for what follows, since it closes at the level it was opened at.
mutual

theorem run_command : ∀ (item : Item) {l : Layout} {base depth : Nat}, l.level = base + depth →
    l.run item.command = l.withRows base (item.rows depth)
  | .line code, _, _, _, h => line_eq_withRows h code
  | .blank count, l, base, depth, _ => blank_eq_withRows l base depth count
  | .block header body, l, base, depth, h => by
    let opened := l.withRows base (header.toList.map (Row.mk depth) ++ [⟨depth, "\x7b"⟩])
    have hopened : opened.level = base + depth := h
    have hinside : opened.indent.level = base + (depth + 1) := congrArg (· + 1) hopened
    rw [Item.command, run_block, openBlock_eq_withRows h, runAll_commandAll body hinside,
      closeBlock_eq_withRows hopened, ← withRows_append, Item.rows]
    simp only [List.append_assoc, List.cons_append, List.nil_append]

theorem runAll_commandAll : ∀ (items : List Item) {l : Layout} {base depth : Nat},
    l.level = base + depth →
    l.runAll (Item.commandAll items) = l.withRows base (Item.rowsAll depth items)
  | [], l, base, _, _ => (l.withRows_nil base).symm
  | item :: items, l, base, depth, h => by
    have hlevel : (l.withRows base (item.rows depth)).level = base + depth := h
    rw [Item.commandAll, runAll_cons, run_command item h, runAll_commandAll items hlevel,
      ← withRows_append, Item.rowsAll]

end

/-- A run over text with blocks in it writes its rows, each at the level of the start and as many levels
deeper as there are blocks around it, and ends at the level of the start. -/
theorem written_by_depth (l : Layout) (items : List Item) :
    let after := l.runAll (Item.commandAll items)
    after.written =
        l.written ++ String.join ((Item.rowsAll 0 items).map (Row.written l.unit l.level)) ∧
      after.level = l.level ∧ after.unit = l.unit := by
  intro after
  have hrun : after = l.withRows l.level (Item.rowsAll 0 items) := runAll_commandAll items rfl
  rw [hrun]
  exact ⟨rfl, rfl, rfl⟩

example : (Layout.runAll ⟨"  ", 1, "a\n"⟩ (Item.commandAll
    [.block (some "b") [.line " ", .block none [.line "c"], .blank (-1)], .blank 1])).written =
    "a\n  b\n  \x7b\n\n    \x7b\n      c\n    \x7d\n  \x7d\n\n" := by cbv

end TierHost.Layout
