import TierHost.Proofs.Symbols.RoundTrip

/-!
What fingerprints tell apart. The text that is hashed has a line for each name and writes the names as
they are, so that a name with a line feed can forge the lines of other symbols; without such names two
compilations have the same text only if they are the same.
-/

namespace TierHost

namespace Compilation

variable {c d : Compilation}

/-- Placed compilations without forged lines are told by the text of their outlines, up to a missing
name. -/
theorem Unforged.eq_of_outlineText (hc : c.Unforged) (hd : d.Unforged) (hpc : c.Placed)
    (hpd : d.Placed) (h : c.outlineText = d.outlineText) :
    c.name.getD "" = d.name.getD "" ∧ c.references = d.references := by
  obtain ⟨hname, hrefs⟩ := hc.outlineText_inj hd h
  refine ⟨hname, eq_of_map_eq ?_ hrefs⟩
  intro a ha b hb hab
  exact (hpc a ha).eq_of_root (hpd b hb) hab

/-- The outline leaves out of a compilation only whether it has a name at all. -/
theorem outlineText_congr (hname : c.name.getD "" = d.name.getD "")
    (hrefs : c.references = d.references) : c.outlineText = d.outlineText := by
  rw [outlineText, outlineText, outline, outline, hname, hrefs]

/-- Compilations that were read have the same text to hash exactly when they have the same name and
the same references, unless a name forges a line; so only a collision gives two different ones the
same fingerprint. -/
theorem fingerprint_separates {text text' : String} {c d : Compilation}
    (hload : load text = .ok c) (hload' : load text' = .ok d) (hc : c.Unforged) (hd : d.Unforged) :
    (c.outlineText = d.outlineText ↔
      c.name.getD "" = d.name.getD "" ∧ c.references = d.references) ∧
    (c.fingerprint = d.fingerprint →
      (c.name.getD "" = d.name.getD "" ∧ c.references = d.references) ∨
        c.outlineText ≠ d.outlineText ∧
          Sha256.digest c.outlineText = Sha256.digest d.outlineText) := by
  have hpc : c.Placed := (load_eq_ok hload).1
  have hpd : d.Placed := (load_eq_ok hload').1
  have htext : c.outlineText = d.outlineText ↔
      c.name.getD "" = d.name.getD "" ∧ c.references = d.references := by
    constructor
    · exact hc.eq_of_outlineText hd hpc hpd
    · rintro ⟨hname, hrefs⟩
      exact outlineText_congr hname hrefs
  refine ⟨htext, ?_⟩
  intro hdigest
  by_cases he : c.outlineText = d.outlineText
  · exact Or.inl (htext.mp he)
  · exact Or.inr ⟨he, hdigest⟩

/-- A compilation that references a namespace with one class. -/
def singleClass : Compilation :=
  ⟨some "StyleCop.Analyzers.Test.CSharp7",
    [⟨"StyleCop.Analyzers.Test",
      ⟨"", "", [.space "Spacing" "" [.type ⟨"FooUnitTests", "Spacing", "", []⟩]]⟩⟩]⟩

/-- A compilation that references a namespace without classes, whose name goes on in another line as
the outline does for a class. -/
def forgedClass : Compilation :=
  ⟨some "StyleCop.Analyzers.Test.CSharp7",
    [⟨"StyleCop.Analyzers.Test", ⟨"", "", [.space "Spacing\n3:type:FooUnitTests" "" []]⟩⟩]⟩

theorem singleClass_loads : load singleClass.dump = .ok singleClass := by
  rw [load_dump]
  rfl

/-- The same compilation under a name that ends in a line feed, with which no line starts. -/
def endedClass : Compilation := { singleClass with name := some "StyleCop.Analyzers.Test.CSharp7\n" }

theorem singleClass_oneLined : singleClass.OneLined where
  name := by decide
  assembly a ha := by
    obtain rfl := List.mem_singleton.mp ha
    decide
  symbol a ha e he := by
    obtain rfl := List.mem_singleton.mp ha
    have hpreorder : ∀ e ∈ [(1, Member.space "" "" [.space "Spacing" ""
        [.type ⟨"FooUnitTests", "Spacing", "", []⟩]]), (2, .space "Spacing" ""
        [.type ⟨"FooUnitTests", "Spacing", "", []⟩]), (3, .type ⟨"FooUnitTests", "Spacing", "", []⟩)],
        '\n' ∉ e.2.name.toList := by decide
    apply hpreorder
    simpa [Assembly.preorder, preorderFrom, Namespace.toMember, Member.children] using he

theorem endedClass_unforged : endedClass.Unforged where
  name := Outline.unforged_feed (s := "StyleCop.Analyzers.Test.CSharp7".toList) (by decide)
  assembly := singleClass_oneLined.unforged.assembly
  symbol := singleClass_oneLined.unforged.symbol

/-- Two compilations that differ in a line feed at the end of their names have different texts. -/
theorem fingerprint_separates_ended :
    load singleClass.dump = .ok singleClass ∧ load endedClass.dump = .ok endedClass ∧
      singleClass.Unforged ∧ endedClass.Unforged ∧
      singleClass.outlineText ≠ endedClass.outlineText := by
  have hended : load endedClass.dump = .ok endedClass := by
    rw [load_dump]
    rfl
  have hsingle : singleClass.Unforged := singleClass_oneLined.unforged
  obtain ⟨htext, -⟩ := fingerprint_separates singleClass_loads hended hsingle endedClass_unforged
  refine ⟨singleClass_loads, hended, hsingle, endedClass_unforged, ?_⟩
  intro h
  exact absurd (htext.mp h).1 (by decide)

/-- Different compilations can have the same text to hash, and so the same fingerprint. -/
theorem not_always_separated :
    load singleClass.dump = .ok singleClass ∧ load forgedClass.dump = .ok forgedClass ∧
      singleClass.outlineText = forgedClass.outlineText ∧
      singleClass.fingerprint = forgedClass.fingerprint ∧
      singleClass.references ≠ forgedClass.references := by
  have htext : singleClass.outlineText = forgedClass.outlineText := by
    simp only [outlineText, outline, singleClass, forgedClass, List.flatMap_singleton,
      Assembly.outline_eq, Member.outline_eq, Member.outlines, Member.children, Namespace.toMember,
      List.flatMap_nil, List.map_nil]
    decide
  refine ⟨singleClass_loads, ?_, htext, congrArg Sha256.digest htext, by decide⟩
  rw [load_dump]
  rfl

end Compilation

end TierHost
