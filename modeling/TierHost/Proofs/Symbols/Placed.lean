import TierHost.Proofs.Mapping
import TierHost.Symbols.Dump
import Mathlib.Tactic.Common

/-!
Symbols with their paths in place. The form of a symbol leaves the paths out, so that a form and the
path it stands at determine the symbol, and every form has a symbol that is placed where it is wanted.
-/

namespace TierHost

/-- Induction over a type and the types nested in it. -/
@[elab_as_elim]
theorem NamedType.induction {motive : NamedType → Prop}
    (type : ∀ name space outer nested, (∀ t ∈ nested, motive t) →
      motive ⟨name, space, outer, nested⟩) : ∀ t, motive t
  | ⟨name, space, outer, nested⟩ =>
    type name space outer nested fun t _ => NamedType.induction type t

/-- Induction over a member of a namespace and the members below it. -/
@[elab_as_elim]
theorem Member.induction {motive : Member → Prop}
    (space : ∀ name parent members, (∀ m ∈ members, motive m) →
      motive (.space name parent members))
    (type : ∀ t, motive (.type t)) : ∀ m, motive m
  | .space name parent members =>
    space name parent members fun m _ => Member.induction space type m
  | .type t => type t

/-- The paths of a type and of all types below it are those of what encloses them. -/
inductive NamedType.Placed (space : String) : String → NamedType → Prop
  | intro {name outer : String} {nested : List NamedType}
      (inside : ∀ t ∈ nested, t.Placed space (extendPath outer name)) :
      Placed space outer ⟨name, space, outer, nested⟩

theorem NamedType.Placed.namespacePath_eq {space outer : String} {t : NamedType}
    (h : t.Placed space outer) : t.namespacePath = space := by
  cases h
  rfl

theorem NamedType.Placed.outerPath_eq {space outer : String} {t : NamedType}
    (h : t.Placed space outer) : t.outerPath = outer := by
  cases h
  rfl

/-- The paths of a member and of all symbols below it are those of what encloses them. -/
inductive Member.Placed : String → Member → Prop
  | space {path name : String} {members : List Member}
      (inside : ∀ m ∈ members, m.Placed (extendPath path name)) :
      Placed path (.space name path members)
  | type {path : String} {t : NamedType} (placed : t.Placed path "") : Placed path (.type t)

/-- All paths in an assembly follow from the names, starting from the empty path. -/
def Assembly.Placed (a : Assembly) : Prop := a.root.toMember.Placed ""

/-- All paths in a compilation follow from the names. -/
def Compilation.Placed (c : Compilation) : Prop := ∀ a ∈ c.references, a.Placed

namespace Dump

theorem typeForms_eq_map (ts : List NamedType) : typeForms ts = ts.map typeForm := by
  induction ts with
  | nil => rfl
  | cons t ts ih => rw [typeForms, ih, List.map_cons]

theorem memberForms_eq_map (ms : List Member) : memberForms ms = ms.map memberForm := by
  induction ms with
  | nil => rfl
  | cons m ms ih => rw [memberForms, ih, List.map_cons]

theorem typeForm_mk (name space outer : String) (nested : List NamedType) :
    typeForm ⟨name, space, outer, nested⟩ =
      .list (.symbol "type" :: .text name :: nested.map typeForm) := by
  rw [typeForm, typeForms_eq_map]

theorem memberForm_space (name parent : String) (members : List Member) :
    memberForm (.space name parent members) =
      .list (.symbol "namespace" :: .text name :: members.map memberForm) := by
  rw [memberForm, memberForms_eq_map]

theorem typeForm_ne_space (t : NamedType) (items : List Sexp) :
    typeForm t ≠ .list (.symbol "namespace" :: items) := by
  cases t
  simp [typeForm_mk]

end Dump

open Dump

/-- The paths of a type follow from its form and the paths it is placed at. -/
theorem NamedType.Placed.eq_of_form {space outer : String} {s t : NamedType}
    (hs : s.Placed space outer) (ht : t.Placed space outer) (h : typeForm s = typeForm t) :
    s = t := by
  -- nested types are placed at a longer path, so the induction is for every path
  induction s using NamedType.induction generalizing outer t with
  | type name _ _ nested ih =>
    cases hs with
    | intro hs =>
      cases ht with
      | @intro name' _ nested' ht =>
        simp only [typeForm_mk, Sexp.list.injEq, List.cons.injEq, Sexp.text.injEq, true_and] at h
        obtain ⟨rfl, h⟩ := h
        rw [eq_of_map_eq (fun s hs' t ht' => ih s hs' (hs s hs') (ht t ht')) h]

theorem Member.Placed.eq_of_form {path : String} {m n : Member} (hm : m.Placed path)
    (hn : n.Placed path) (h : memberForm m = memberForm n) : m = n := by
  induction m using Member.induction generalizing path n with
  | space name _ members ih =>
    cases hm with
    | space hm =>
      cases hn with
      | @space _ name' members' hn =>
        simp only [memberForm_space, Sexp.list.injEq, List.cons.injEq, Sexp.text.injEq,
          true_and] at h
        obtain ⟨rfl, h⟩ := h
        rw [eq_of_map_eq (fun m hm' n hn' => ih m hm' (hm m hm') (hn n hn')) h]
      | @type _ t => exact absurd h.symm (typeForm_ne_space t _)
  | type t =>
    cases hm with
    | type ht =>
      cases hn with
      | space => exact absurd h (typeForm_ne_space t _)
      | type hu => rw [ht.eq_of_form hu h]

/-- All namespaces in a member have names of a single segment: not empty, and without points. -/
inductive Member.Segmented : Member → Prop
  | space {name parent : String} {members : List Member} (named : name ≠ "")
      (dotless : '.' ∉ name.toList) (inside : ∀ m ∈ members, m.Segmented) :
      Segmented (.space name parent members)
  | type (t : NamedType) : Segmented (.type t)

/-- The global namespace has no name, and the other namespaces have names of a single segment. -/
structure Assembly.Segmented (a : Assembly) : Prop where
  unnamed : a.root.name = ""
  inside : ∀ m ∈ a.root.members, m.Segmented

/-- All referenced assemblies have an unnamed global namespace and single segments below it. -/
def Compilation.Segmented (c : Compilation) : Prop := ∀ a ∈ c.references, a.Segmented

/-- Every type has a counterpart with the same form that is placed where it is wanted. -/
theorem NamedType.exists_placed (t : NamedType) (space outer : String) :
    ∃ u : NamedType, u.Placed space outer ∧ typeForm u = typeForm t := by
  induction t using NamedType.induction generalizing outer with
  | type name _ _ nested ih =>
    obtain ⟨us, hus, he⟩ := exists_map_eq fun t ht => ih t ht (extendPath outer name)
    exact ⟨⟨name, space, outer, us⟩, .intro hus, by rw [typeForm_mk, typeForm_mk, he]⟩

theorem Member.Segmented.exists_placed {m : Member} (hm : m.Segmented) (path : String) :
    ∃ n : Member, (n.Placed path ∧ n.Segmented) ∧ memberForm n = memberForm m := by
  induction m using Member.induction generalizing path with
  | space name _ members ih =>
    cases hm with
    | space named dotless inside =>
      obtain ⟨ns, hns, he⟩ := exists_map_eq fun m hm => ih m hm (inside m hm) (extendPath path name)
      refine ⟨.space name path ns, ⟨.space fun n hn => (hns n hn).1, ?_⟩, ?_⟩
      · exact .space named dotless fun n hn => (hns n hn).2
      · rw [memberForm_space, memberForm_space, he]
  | type t =>
    obtain ⟨u, hu, he⟩ := t.exists_placed path ""
    exact ⟨.type u, ⟨.type hu, .type u⟩, by rw [memberForm, memberForm, he]⟩

end TierHost
