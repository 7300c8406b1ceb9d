import TierHost.Digest.Sha256
import TierHost.Symbols.Basic

/-!
The outline of a compilation: a line for its name, for every referenced assembly, and in pre-order
for every symbol with its depth. The digest of the outline is the compilation's fingerprint.
-/

namespace TierHost

mutual

def NamedType.size : NamedType → Nat
  | ⟨_, _, _, nested⟩ => 1 + NamedType.sizeList nested

def NamedType.sizeList : List NamedType → Nat
  | [] => 0
  | t :: ts => t.size + NamedType.sizeList ts

end

mutual

def Member.size : Member → Nat
  | .space _ _ members => 1 + Member.sizeList members
  | .type t => t.size

def Member.sizeList : List Member → Nat
  | [] => 0
  | m :: ms => m.size + Member.sizeList ms

end

def Member.line (depth : Nat) : Member → String
  | .space name _ _ => toString depth ++ ":namespace:" ++ name
  | .type t => toString depth ++ ":type:" ++ t.name

def Member.children : Member → List Member
  | .space _ _ members => members
  | .type t => t.nested.map .type

theorem Member.sizeList_append (ms ns : List Member) :
    Member.sizeList (ms ++ ns) = Member.sizeList ms + Member.sizeList ns := by
  induction ms with
  | nil => simp [Member.sizeList]
  | cons m ms ih => simp [Member.sizeList, ih, Nat.add_assoc]

theorem Member.sizeList_map_type (ts : List NamedType) :
    Member.sizeList (ts.map .type) = NamedType.sizeList ts := by
  induction ts with
  | nil => rfl
  | cons t ts ih => simp [Member.sizeList, NamedType.sizeList, Member.size, ih]

/-- A member is one larger than what is directly inside it. -/
theorem Member.size_eq (m : Member) : m.size = 1 + Member.sizeList m.children := by
  cases m with
  | space => simp [Member.size, Member.children]
  | type t => cases t; simp [Member.size, Member.children, NamedType.size, sizeList_map_type]

def pendingSize (pending : List (Nat × Member)) : Nat := Member.sizeList (pending.map (·.2))

/-- All symbols of a work list with their depths: the first entry, then what is directly inside it
one level deeper, then the rest. -/
def preorderFrom : List (Nat × Member) → List (Nat × Member)
  | [] => []
  | (depth, m) :: rest =>
    (depth, m) :: preorderFrom (m.children.map (fun child => (depth + 1, child)) ++ rest)
termination_by pending => pendingSize pending
decreasing_by
  simp [pendingSize, Function.comp_def, Member.sizeList, Member.sizeList_append, Member.size_eq m]

theorem preorderFrom_append (ms ns : List (Nat × Member)) :
    preorderFrom (ms ++ ns) = preorderFrom ms ++ preorderFrom ns := by
  fun_induction preorderFrom ms with
  | case1 => rfl
  | case2 depth m rest ih =>
    rw [List.cons_append, preorderFrom, ← List.append_assoc, ih, List.cons_append]

/-- The symbols of an assembly in pre-order; the global namespace has depth one. -/
def Assembly.preorder (a : Assembly) : List (Nat × Member) := preorderFrom [(1, a.root.toMember)]

def Assembly.outline (a : Assembly) : List String :=
  ("assembly:" ++ a.name) :: a.preorder.map fun (depth, m) => m.line depth

/-- The outline of a compilation; one without a name counts as having the empty name. -/
def Compilation.outline (c : Compilation) : List String :=
  ("compilation:" ++ c.name.getD "") :: c.references.flatMap Assembly.outline

/-- The text that a fingerprint is taken of: the outline's lines, each with a line feed. -/
def Compilation.outlineText (c : Compilation) : String :=
  String.join (c.outline.map (· ++ "\n"))

def Compilation.fingerprint (c : Compilation) : String := Sha256.digest c.outlineText

end TierHost
