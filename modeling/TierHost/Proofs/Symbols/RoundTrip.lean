import TierHost.Proofs.Sexp.RoundTrip
import TierHost.Proofs.Symbols.Loading
import TierHost.Proofs.Symbols.Outline

/-!
Dumps and their reading. What is read back from a dump has the same names, the same nesting and the
same outline, and all its paths follow from the names; so it is what was dumped if and only if that
had its paths in place.
-/

namespace TierHost

namespace Dump

theorem isAtom_type : Sexp.IsAtom "type" :=
  ⟨by decide, by simp [Sexp.endsAtom, Sexp.isSpace], rfl⟩

theorem isAtom_namespace : Sexp.IsAtom "namespace" :=
  ⟨by decide, by simp [Sexp.endsAtom, Sexp.isSpace], rfl⟩

theorem isAtom_assembly : Sexp.IsAtom "assembly" :=
  ⟨by decide, by simp [Sexp.endsAtom, Sexp.isSpace], rfl⟩

theorem isAtom_compilation : Sexp.IsAtom "compilation" :=
  ⟨by decide, by simp [Sexp.endsAtom, Sexp.isSpace], rfl⟩

theorem plain_form {tag name : String} {items : List Sexp} (ht : Sexp.IsAtom tag)
    (h : ∀ item ∈ items, item.Plain) : (Sexp.list (.symbol tag :: .text name :: items)).Plain := by
  apply Sexp.Plain.list
  intro item hi
  rcases List.mem_cons.mp hi with rfl | hi
  · exact .symbol ht
  · rcases List.mem_cons.mp hi with rfl | hi
    · exact .text name
    · exact h item hi

theorem plain_memberForm (m : Member) : (memberForm m).Plain := by
  induction m using Member.induction_children with
  | inside m ih =>
    have htag : Sexp.IsAtom m.tag := by
      cases m with
      | space => exact isAtom_namespace
      | type => exact isAtom_type
    rw [Member.form_eq]
    apply plain_form htag
    intro item hi
    obtain ⟨child, hc, rfl⟩ := List.mem_map.mp hi
    exact ih child hc

theorem plain_assemblyForm (a : Assembly) : (assemblyForm a).Plain := by
  rw [assemblyForm, memberForms_eq_map]
  apply plain_form isAtom_assembly
  intro item hi
  obtain ⟨m, -, rfl⟩ := List.mem_map.mp hi
  exact plain_memberForm m

theorem plain_compilationForm (c : Compilation) : (compilationForm c).Plain := by
  have hrefs : ∀ item ∈ c.references.map assemblyForm, item.Plain := by
    intro item hi
    obtain ⟨a, -, rfl⟩ := List.mem_map.mp hi
    exact plain_assemblyForm a
  rw [compilationForm]
  cases c.name with
  | none =>
    apply Sexp.Plain.list
    intro item hi
    rcases List.mem_cons.mp hi with rfl | hi
    · exact .symbol isAtom_compilation
    · exact hrefs item hi
  | some name => exact plain_form isAtom_compilation hrefs

end Dump

namespace Assembly

theorem load_dump (a : Assembly) : load a.dump = Dump.loadAssemblyForm (Dump.assemblyForm a) := by
  rw [load, dump, (Dump.plain_assemblyForm a).read_write]
  rfl

theorem form_eq_iff {a b : Assembly} (ha : a.root.name = "") (hb : b.root.name = "") :
    Dump.assemblyForm a = Dump.assemblyForm b ↔
      (a.name, Dump.memberForm a.root.toMember) = (b.name, Dump.memberForm b.root.toMember) := by
  simp only [Dump.assemblyForm, Namespace.toMember, Dump.memberForm_space, Dump.memberForms_eq_map,
    ha, hb, Prod.mk.injEq, Sexp.list.injEq, List.cons.injEq, Sexp.text.injEq, true_and]

theorem Placed.eq_of_root {a b : Assembly} (ha : a.Placed) (hb : b.Placed)
    (h : (a.name, Dump.memberForm a.root.toMember) = (b.name, Dump.memberForm b.root.toMember)) :
    a = b := by
  obtain ⟨hname, hroot⟩ := Prod.mk.inj h
  have hmember : a.root.toMember = b.root.toMember := Member.Placed.eq_of_form ha hb hroot
  rcases a with ⟨name, ⟨root, parent, members⟩⟩
  rcases b with ⟨name', ⟨root', parent', members'⟩⟩
  simp only [Namespace.toMember, Member.space.injEq] at hmember
  obtain ⟨rfl, rfl, rfl⟩ := hmember
  obtain rfl : name = name' := hname
  rfl

theorem Segmented.exists_placed {a : Assembly} (h : a.Segmented) :
    ∃ b : Assembly, (b.Placed ∧ b.Segmented) ∧ Dump.assemblyForm b = Dump.assemblyForm a := by
  obtain ⟨members, hm, hforms⟩ := exists_map_eq fun m hm => (h.inside m hm).exists_placed ""
  refine ⟨⟨a.name, ⟨"", "", members⟩⟩, ⟨?_, rfl, fun m h => (hm m h).2⟩, ?_⟩
  · exact .space fun m h => (hm m h).1
  · rw [Dump.assemblyForm, Dump.assemblyForm, Dump.memberForms_eq_map, Dump.memberForms_eq_map,
      hforms]

theorem load_eq_ok {text : String} {a : Assembly} (h : load text = .ok a) :
    a.Placed ∧ a.Segmented := by
  rw [load] at h
  obtain ⟨form, -, h⟩ := (except_bind_eq_ok _ _ _).mp h
  exact (Dump.loadAssemblyForm_iff.mp h).2

theorem Placed.load_dump {a : Assembly} (h : a.Placed) (hs : a.Segmented) : load a.dump = .ok a := by
  rw [a.load_dump]
  exact Dump.loadAssemblyForm_iff.mpr ⟨rfl, h, hs⟩

/-- An assembly survives its dump up to the paths. -/
theorem Segmented.load_dump {a : Assembly} (h : a.Segmented) :
    ∃ b, load a.dump = .ok b ∧ b.outline = a.outline ∧ (b = a ↔ a.Placed) := by
  obtain ⟨b, ⟨hp, hs⟩, hform⟩ := h.exists_placed
  refine ⟨b, ?_, ?_, ?_⟩
  · rw [a.load_dump]
    exact Dump.loadAssemblyForm_iff.mpr ⟨hform, hp, hs⟩
  · obtain ⟨hname, hroot⟩ := Prod.mk.inj ((form_eq_iff hs.unnamed h.unnamed).mp hform)
    rw [outline_eq, outline_eq, hname, Member.outline_eq_of_form hroot]
  · constructor
    · rintro rfl
      exact hp
    · intro ha
      exact hp.eq_of_root ha ((form_eq_iff hs.unnamed h.unnamed).mp hform)

end Assembly

namespace Compilation

theorem load_dump (c : Compilation) :
    load c.dump = Dump.loadCompilationForm (Dump.compilationForm c) := by
  rw [load, dump, (Dump.plain_compilationForm c).read_write]
  rfl

theorem Segmented.map_forms {c d : Compilation} (hc : c.Segmented) (hd : d.Segmented)
    (h : c.references.map Dump.assemblyForm = d.references.map Dump.assemblyForm) :
    c.references.map (fun a => (a.name, Dump.memberForm a.root.toMember)) =
      d.references.map (fun a => (a.name, Dump.memberForm a.root.toMember)) :=
  map_eq_of_map_eq
    (fun a ha b hb he => (Assembly.form_eq_iff (hc a ha).unnamed (hd b hb).unnamed).mp he) h

theorem load_eq_ok {text : String} {c : Compilation} (h : load text = .ok c) :
    c.Placed ∧ c.Segmented := by
  rw [load] at h
  obtain ⟨form, -, h⟩ := (except_bind_eq_ok _ _ _).mp h
  exact (Dump.loadCompilationForm_iff.mp h).2

theorem Placed.load_dump {c : Compilation} (h : c.Placed) (hs : c.Segmented) :
    load c.dump = .ok c := by
  rw [c.load_dump]
  exact Dump.loadCompilationForm_iff.mpr ⟨rfl, h, hs⟩

/-- Every compilation has a counterpart with the same name and forms that is placed. -/
theorem Segmented.exists_placed {c : Compilation} (h : c.Segmented) :
    ∃ d : Compilation, (d.Placed ∧ d.Segmented) ∧ d.name = c.name ∧
      d.references.map Dump.assemblyForm = c.references.map Dump.assemblyForm := by
  obtain ⟨as, has, hforms⟩ := exists_map_eq fun a ha => (h a ha).exists_placed
  exact ⟨⟨c.name, as⟩, ⟨fun a ha => (has a ha).1, fun a ha => (has a ha).2⟩, rfl, hforms⟩

theorem compilationForm_congr {c d : Compilation} (hname : d.name = c.name)
    (hforms : d.references.map Dump.assemblyForm = c.references.map Dump.assemblyForm) :
    Dump.compilationForm d = Dump.compilationForm c := by
  rw [Dump.compilationForm, Dump.compilationForm, hname, hforms]

theorem Segmented.load_dump {c : Compilation} (h : c.Segmented) :
    ∃ d, load c.dump = .ok d ∧ d.outlineText = c.outlineText ∧ (d = c ↔ c.Placed) := by
  -- what is read is the placed counterpart of each assembly, under the same name
  obtain ⟨d, ⟨hp, hs⟩, hname, hforms⟩ := h.exists_placed
  refine ⟨d, ?_, ?_, ?_⟩
  · rw [c.load_dump]
    exact Dump.loadCompilationForm_iff.mpr ⟨compilationForm_congr hname hforms, hp, hs⟩
  · exact outlineText_eq_of_form hname (hs.map_forms h hforms)
  · constructor
    · intro he
      exact he ▸ hp
    · intro hc
      have hrefs : d.references = c.references := by
        apply eq_of_map_eq _ (hs.map_forms h hforms)
        intro a ha b hb hab
        exact (hp a ha).eq_of_root (hc b hb) hab
      rcases c with ⟨name, references⟩
      rcases d with ⟨name', references'⟩
      obtain rfl : name' = name := hname
      obtain rfl : references' = references := hrefs
      rfl

end Compilation

/-- Dumps round-trip: a dump of anything with namespaces of single segments is read, its fingerprint
is taken of the same text, and it is what was dumped exactly when all paths follow from the names;
what is read has its paths in place, so that it is read again from its own dump. -/
theorem dump_round_trip :
    (∀ c : Compilation, c.Segmented →
      ∃ d, Compilation.load c.dump = .ok d ∧ d.outlineText = c.outlineText ∧
        (d = c ↔ c.Placed)) ∧
    (∀ (text : String) (c : Compilation), Compilation.load text = .ok c →
      c.Placed ∧ Compilation.load c.dump = .ok c) ∧
    (∀ a : Assembly, a.Segmented →
      ∃ b, Assembly.load a.dump = .ok b ∧ b.outline = a.outline ∧ (b = a ↔ a.Placed)) ∧
    (∀ (text : String) (a : Assembly), Assembly.load text = .ok a →
      a.Placed ∧ Assembly.load a.dump = .ok a) := by
  refine ⟨fun c hc => hc.load_dump, ?_, fun a ha => ha.load_dump, ?_⟩
  · intro text c h
    obtain ⟨hp, hs⟩ := Compilation.load_eq_ok h
    exact ⟨hp, hp.load_dump hs⟩
  · intro text a h
    obtain ⟨hp, hs⟩ := Assembly.load_eq_ok h
    exact ⟨hp, hp.load_dump hs⟩

/-- A compilation with a type that names another namespace than the one it is in. -/
def misplaced : Compilation :=
  ⟨some "Tests\n\"7\"",
    [⟨"", ⟨"", "", [.space "N" "" [.type ⟨"T\\", "Elsewhere", "", [⟨"", "N", "T\\", []⟩]⟩]]⟩⟩]⟩

theorem misplaced_segmented : misplaced.Segmented := by
  intro a ha
  obtain rfl := List.mem_singleton.mp ha
  refine ⟨rfl, ?_⟩
  intro m hm
  obtain rfl := List.mem_singleton.mp hm
  apply Member.Segmented.space (by decide) (by decide)
  intro m hm
  obtain rfl := List.mem_singleton.mp hm
  exact .type _

theorem misplaced_not_placed : ¬ misplaced.Placed := by
  intro h
  cases h _ List.mem_cons_self with
  | space h =>
    cases h _ List.mem_cons_self with
    | space h =>
      cases h _ List.mem_cons_self with
      | type h => exact absurd h.namespacePath_eq (by decide)

/-- Reading its dump mends the compilation, and what is read stays as it is from then on. -/
theorem dump_round_trip_misplaced :
    misplaced.Segmented ∧ ∃ d, Compilation.load misplaced.dump = .ok d ∧
      d.outlineText = misplaced.outlineText ∧ d ≠ misplaced ∧ d.Placed ∧
      Compilation.load d.dump = .ok d := by
  obtain ⟨d, hd, ho, he⟩ := dump_round_trip.1 misplaced misplaced_segmented
  obtain ⟨hp, hl⟩ := dump_round_trip.2.1 misplaced.dump d hd
  exact ⟨misplaced_segmented, d, hd, ho, fun h => misplaced_not_placed (he.mp h), hp, hl⟩

end TierHost
