import TierHost.Symbols.Basic

/-!
Symbol visitors: one rule per kind of symbol. A rule is given what the rules make of the symbols
directly inside, and decides whether to use it.
-/

namespace TierHost

/-- The kinds of symbol. -/
inductive SymbolKind where
  | assembly
  | space
  | type
  deriving DecidableEq, Repr

def SymbolKind.name : SymbolKind → String
  | .assembly => "assembly"
  | .space => "namespace"
  | .type => "named_type"

def Symbol.kind : Symbol → SymbolKind
  | .assembly _ => .assembly
  | .space _ => .space
  | .type _ => .type

def Symbol.name : Symbol → String
  | .assembly a => a.name
  | .space n => n.name
  | .type t => t.name

/-- What to make of each kind of symbol. -/
structure Visitor (α : Type) where
  assembly : Assembly → α → α
  space : Namespace → List α → α
  type : NamedType → α

namespace Visitor

/-- A visitor with one rule for all kinds, which looks at nothing inside. -/
def uniform (rule : Symbol → α) : Visitor α where
  assembly a _ := rule (.assembly a)
  space n _ := rule (.space n)
  type t := rule (.type t)

def visitMember (v : Visitor α) : Member → α
  | .space name parent members =>
    v.space ⟨name, parent, members⟩ (members.attach.map fun ⟨m, _⟩ => v.visitMember m)
  | .type t => v.type t

def visit (v : Visitor α) : Symbol → α
  | .assembly a => v.assembly a (v.visitMember a.root.toMember)
  | .space n => v.visitMember n.toMember
  | .type t => v.type t

end Visitor

end TierHost
