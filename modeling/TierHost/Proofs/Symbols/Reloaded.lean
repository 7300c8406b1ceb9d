import TierHost.Proofs.Symbols.Building
import TierHost.Proofs.Symbols.Built
import TierHost.Proofs.Symbols.Grammar

/-!
Dumps of assemblies that are built from names. Two points side by side in a name make a namespace
without a name, which a dump may not hold; without them the assembly is read back from its dump.
-/

namespace TierHost

/-- Two points stand side by side, so that a segment between them is empty. -/
def Gapped (name : String) : Prop := ['.', '.'] <:+: bareName name

instance (name : String) : Decidable (Gapped name) :=
  inferInstanceAs (Decidable (['.', '.'] <:+: bareName name))

theorem empty_mem_segments_iff {path : String} :
    "" ∈ segments path ↔ path ≠ "" ∧ [] ∈ Text.pieces '.' path.toList := by
  rw [segments]
  by_cases hempty : path.isEmpty = true
  · rw [if_pos hempty]
    simp [String.isEmpty_iff.mp hempty]
  · rw [if_neg hempty, List.mem_map]
    rw [String.isEmpty_iff] at hempty
    simp [hempty]

/-- A namespace in front of a simple name has an empty segment if the name has a gap. -/
theorem empty_mem_space_iff {name : String} (ht : ¬ Typeless name) (hr : ¬ Rootless name) :
    "" ∈ segments (splitQualified name).1 ↔ Gapped name := by
  rw [empty_mem_segments_iff]
  rcases splitQualified_cases name with ⟨hbare, hsplit⟩ | ⟨space, simple, hbare, hsimple, hsplit⟩
  · rw [hsplit]
    apply iff_of_false
    · exact fun h => h.1 rfl
    · exact fun h => hbare (h.subset List.mem_cons_self)
  · have hnamed : simple ≠ [] := by
      intro hs
      apply ht
      rw [Typeless, hbare, hs]
      exact Or.inr (List.suffix_append space ['.'])
    rw [hsplit, String.toList_ofList, Gapped, hbare]
    cases space with
    | nil =>
      -- a point in front is the only one
      rw [Text.double_infix_append_iff List.not_mem_nil]
      apply iff_of_false
      · exact fun h => h.1 rfl
      · intro h
        rcases h with h | h
        · exact hsimple (h.isInfix.subset List.mem_cons_self)
        · exact hsimple (h.subset List.mem_cons_self)
    | cons c space =>
      have hc : '.' ≠ c := by
        intro hc
        rw [← hc] at hbare
        exact hr ⟨space, simple, hbare, hsimple⟩
      have hstart : ¬ ['.'] <+: c :: space ++ '.' :: simple :=
        fun h => hc (List.cons_prefix_cons.mp h).1
      have hne : ¬ c :: space ++ '.' :: simple = [] := List.cons_ne_nil c _
      have hend : ¬ ['.'] <:+ c :: space ++ '.' :: simple := hbare ▸ fun h => ht (Or.inr h)
      have hpath : String.ofList (c :: space) ≠ "" := by simp
      -- the simple name is a piece too, and not an empty one
      have hpieces : [] ∈ Text.pieces '.' (c :: space ++ '.' :: simple) ↔ _ :=
        Text.nil_mem_pieces_iff
      rw [Text.pieces_append_cons, Text.pieces_of_notMem hsimple, List.mem_append,
        List.mem_singleton, or_iff_left (Ne.symm hnamed), or_iff_right hne, or_iff_right hstart,
        or_iff_right hend] at hpieces
      rw [and_iff_right hpath, hpieces]

namespace Dump

/-- How the form of a namespace is read. -/
theorem loadMember_space (path name : String) (parts : List Sexp) :
    loadMember path (.list (.symbol "namespace" :: .text name :: parts)) =
      if name = "" ∨ '.' ∈ name.toList then
        .error (.notSegment (.list (.symbol "namespace" :: .text name :: parts)))
      else (parts.mapM (loadMember (extendPath path name))).map (.space name path) := by
  have hname : (name.isEmpty || name.toList.contains '.') = true ↔ name = "" ∨ '.' ∈ name.toList := by
    rw [Bool.or_eq_true, String.isEmpty_iff, List.contains_iff_mem]
  rw [← loadMembers_eq_mapM]
  unfold loadMember
  change (if (name.isEmpty || name.toList.contains '.') = true then _ else _) = _
  by_cases h : name = "" ∨ '.' ∈ name.toList
  · rw [if_pos h, if_pos (hname.mpr h)]
    rfl
  · rw [if_neg h, if_neg (mt hname.mp h)]
    cases loadMembers (extendPath path name) parts <;> rfl

/-- The dump of a member is not read if a namespace in it has no name of one segment, and that is the
namespace that is refused. -/
theorem loadMember_memberForm {m : Member} {path : String} {e : DumpError}
    (h : loadMember path (memberForm m) = .error e) :
    ∃ around s, (around, Namespace.toMember s) ∈ m.symbols ∧ (s.name = "" ∨ '.' ∈ s.name.toList) ∧
      e = .notSegment (memberForm s.toMember) := by
  induction m using Member.induction generalizing path with
  | space name parent members ih =>
    rw [memberForm_space, loadMember_space] at h
    by_cases hname : name = "" ∨ '.' ∈ name.toList
    · rw [if_pos hname] at h
      refine ⟨[], ⟨name, parent, members⟩, nil_mem_symbols.mpr rfl, hname, ?_⟩
      rw [Namespace.toMember, memberForm_space]
      exact (Except.error.inj h).symm
    · rw [if_neg hname] at h
      -- one of the members inside is not read
      obtain ⟨part, hpart, he⟩ := exists_of_mapM_eq_error (except_map_eq_error.mp h)
      obtain ⟨m, hm, rfl⟩ := List.mem_map.mp hpart
      obtain ⟨around, s, hs, hbad, he⟩ := ih m hm he
      refine ⟨name :: around, s, ?_, hbad, he⟩
      exact cons_mem_symbols.mpr ⟨parent, members, rfl, List.mem_flatMap.mpr ⟨m, hm, hs⟩⟩
  | type t =>
    obtain ⟨u, hu, hform⟩ := t.exists_placed path ""
    have hok : loadMember path (memberForm (.type t)) = .ok (.type u) := by
      rw [memberForm, ← hform]
      exact loadMember_iff.mpr ⟨rfl, .type hu, .type u⟩
    rw [hok] at h
    cases h

end Dump

/-- Every namespace below members with segmented names has a name of one segment. -/
theorem Member.Segmented.of_mem_symbolsIn {members : List Member}
    (h : ∀ m ∈ members, m.Segmented) {path : List String} {m : Member}
    (hm : (path, m) ∈ symbolsIn members) : m.Segmented := by
  induction path generalizing members with
  | nil => exact h m (nil_mem_symbolsIn.mp hm)
  | cons part path ih =>
    obtain ⟨parent, inner, hspace, hinner⟩ := cons_mem_symbolsIn.mp hm
    cases h _ hspace with
    | space named dotless inside => exact ih inside hinner

namespace Assembly

theorem loadAssemblyForm_assemblyForm (a : Assembly) :
    Dump.loadAssemblyForm (Dump.assemblyForm a) =
      ((a.root.members.map Dump.memberForm).mapM (Dump.loadMember "")).map
        fun members => ⟨a.name, ⟨"", "", members⟩⟩ := by
  rw [← Dump.loadMembers_eq_mapM, Dump.assemblyForm, Dump.memberForms_eq_map]
  unfold Dump.loadAssemblyForm
  change (do return Assembly.mk a.name ⟨"", "", ← Dump.loadMembers "" _⟩) = _
  cases Dump.loadMembers "" (a.root.members.map Dump.memberForm) <;> rfl

/-- An assembly with its paths in place is read back from its dump, or else a namespace in it has no
name of one segment and is refused. -/
theorem Placed.load_dump_cases {a : Assembly} (h : a.Placed) (hroot : a.root.name = "") :
    (a.Segmented ∧ load a.dump = .ok a) ∨
      ∃ around s, (around, s) ∈ a.root.spacesBelow ∧ (s.name = "" ∨ '.' ∈ s.name.toList) ∧
        load a.dump = .error (.notSegment (Dump.memberForm s.toMember)) := by
  cases hload : load a.dump with
  | ok b =>
    obtain ⟨hb, hsegmented⟩ := load_eq_ok hload
    rw [a.load_dump] at hload
    have hform : Dump.assemblyForm b = Dump.assemblyForm a :=
      (Dump.loadAssemblyForm_iff.mp hload).1
    obtain rfl := hb.eq_of_root h ((form_eq_iff hsegmented.unnamed hroot).mp hform)
    exact Or.inl ⟨hsegmented, rfl⟩
  | error e =>
    rw [a.load_dump, loadAssemblyForm_assemblyForm] at hload
    obtain ⟨part, hpart, he⟩ := exists_of_mapM_eq_error (except_map_eq_error.mp hload)
    obtain ⟨m, hm, rfl⟩ := List.mem_map.mp hpart
    obtain ⟨around, s, hs, hbad, rfl⟩ := Dump.loadMember_memberForm he
    refine Or.inr ⟨around, s, ?_, hbad, rfl⟩
    apply (Namespace.mem_below fun _ _ => Member.space?_eq_some_iff).mpr
    exact List.mem_flatMap.mpr ⟨m, hm, hs⟩

end Assembly

namespace Mention

variable {ms : List Mention}

/-- A namespace without a name is built below a root exactly if a segment on the way to a type is
empty. -/
theorem exists_nameless_iff (h : ∀ m ∈ ms, Legible m.1) :
    (∃ around s, (around, s) ∈ (root ms).spacesBelow ∧ s.name = "") ↔ ∃ m ∈ ms, "" ∈ m.1 := by
  constructor
  · intro hs
    obtain ⟨around, s, hs, hname⟩ := hs
    obtain ⟨part, hpart, rfl⟩ := (mem_spacesBelow_root h).mp hs
    obtain ⟨parts, name, hm⟩ := mem_spaces.mp hpart
    obtain rfl : part = "" := hname
    exact ⟨_, mem_below.mp hm, List.mem_append_right around List.mem_cons_self⟩
  · intro hm
    obtain ⟨⟨path, name⟩, hm, hempty⟩ := hm
    obtain ⟨around, parts, rfl⟩ := List.append_of_mem hempty
    have hpart : "" ∈ spaces (below around ms) :=
      mem_spaces.mpr ⟨parts, name, (mem_below (m := ("" :: parts, name))).mpr hm⟩
    exact ⟨around, spaceAt around "" ms, (mem_spacesBelow_root h).mpr ⟨"", hpart, rfl⟩, rfl⟩

theorem dotless_of_mem_spacesBelow (h : ∀ m ∈ ms, Legible m.1) {around : List String}
    {s : Namespace} (hs : (around, s) ∈ (root ms).spacesBelow) : '.' ∉ s.name.toList := by
  obtain ⟨part, hpart, rfl⟩ := (mem_spacesBelow_root h).mp hs
  exact (legible_of_mem_spaces h hpart).dotless part (List.mem_append_right around List.mem_cons_self)

end Mention

open Mention

/-- Only names that make a tree make an assembly, which has that tree. -/
theorem buildAssembly_rooted {name : String} {types : List String} {a : Assembly}
    (h : buildAssembly name types = .ok a) :
    (∀ t ∈ types, ¬ Typeless t) ∧ (∀ t ∈ types, ¬ Rootless t) ∧
      a = ⟨name, root (types.map ofName)⟩ := by
  rw [buildAssembly] at h
  rcases typed_or_firstTypeless types with ht | ⟨bad, hbad⟩
  · by_cases hr : ∃ t ∈ types, Rootless t
    · rw [buildTree_rootless ht hr] at h
      cases h
    · have hrooted : ∀ t ∈ types, ¬ Rootless t := fun t htypes hrootless => hr ⟨t, htypes, hrootless⟩
      rw [buildTree_rooted ht hrooted] at h
      exact ⟨ht, hrooted, (Except.ok.inj h).symm⟩
  · rw [buildTree_typeless hbad] at h
    cases h

/-- An assembly that is built from names is read back from its dump exactly if no name has two points
side by side behind its mark. Otherwise its dump is refused for a namespace without a name. -/
theorem load_dump_of_built {name : String} {types : List String} {a : Assembly}
    (h : buildAssembly name types = .ok a) :
    (Assembly.load a.dump = .ok a ↔ ∀ t ∈ types, ¬ Gapped t) ∧
    ((∃ t ∈ types, Gapped t) →
      ∃ around s, (around, s) ∈ a.root.spacesBelow ∧ s.name = "" ∧
        Assembly.load a.dump = .error (.notSegment (Dump.memberForm s.toMember))) := by
  have hplaced : a.Placed := buildAssembly_eq_ok h
  obtain ⟨ht, hr, rfl⟩ := buildAssembly_rooted h
  have hlegible : ∀ m ∈ types.map ofName, Legible m.1 :=
    List.forall_mem_map.mpr fun t htypes => legible_space (hr t htypes)
  have hgap : (∃ around s, (around, s) ∈ (root (types.map ofName)).spacesBelow ∧ s.name = "") ↔
      ∃ t ∈ types, Gapped t := by
    have hmention : (∃ m ∈ types.map ofName, "" ∈ m.1) ↔ ∃ t ∈ types, "" ∈ (ofName t).1 := by simp
    rw [exists_nameless_iff hlegible, hmention]
    exact exists_congr fun t => and_congr_right fun htypes =>
      empty_mem_space_iff (ht t htypes) (hr t htypes)
  rcases hplaced.load_dump_cases rfl with ⟨hsegmented, hload⟩ | ⟨around, s, hs, hbad, hload⟩
  · have hnone : ¬ ∃ t ∈ types, Gapped t := by
      rw [← hgap]
      intro hnameless
      obtain ⟨around, s, hs, hname⟩ := hnameless
      have hmember := (Namespace.mem_below fun _ _ => Member.space?_eq_some_iff).mp hs
      cases Member.Segmented.of_mem_symbolsIn hsegmented.inside hmember with
      | space named dotless inside => exact named hname
    refine ⟨iff_of_true hload ?_, fun hgapped => absurd hgapped hnone⟩
    exact fun t htypes hgapped => hnone ⟨t, htypes, hgapped⟩
  · have hname : s.name = "" := hbad.resolve_right (dotless_of_mem_spacesBelow hlegible hs)
    obtain ⟨t, htypes, hgapped⟩ := hgap.mp ⟨around, s, hs, hname⟩
    refine ⟨iff_of_false ?_ fun hnone => hnone t htypes hgapped, fun _ => ⟨around, s, hs, hname, hload⟩⟩
    rw [hload]
    exact nofun

/-- A namespace that is also a type does no harm to a dump, and a gap behind the first segment does. -/
theorem load_dump_of_built_gap :
    (∃ a, buildAssembly "Tests" ["A.B.Foo", "global::A.B", ".Baz"] = .ok a ∧
      Assembly.load a.dump = .ok a) ∧
    ∃ a, buildAssembly "Tests" ["Foo", "A..Bar"] = .ok a ∧ Assembly.load a.dump ≠ .ok a ∧
      ∃ around s, (around, s) ∈ a.root.spacesBelow ∧ s.name = "" ∧
        Assembly.load a.dump = .error (.notSegment (Dump.memberForm s.toMember)) := by
  constructor
  · obtain ⟨a, ha⟩ : ∃ a, buildAssembly "Tests" ["A.B.Foo", "global::A.B", ".Baz"] = .ok a := ⟨_, rfl⟩
    exact ⟨a, ha, (load_dump_of_built ha).1.mpr (by decide)⟩
  · obtain ⟨a, ha⟩ : ∃ a, buildAssembly "Tests" ["Foo", "A..Bar"] = .ok a := ⟨_, rfl⟩
    obtain ⟨hiff, hgapped⟩ := load_dump_of_built ha
    exact ⟨a, ha, fun hload => absurd (hiff.mp hload) (by decide), hgapped (by decide)⟩

/-- What is built from a name with a gap is not read back from its dump. -/
theorem not_always_reloaded :
    ∃ a, buildAssembly "Tests" ["A..Bar"] = .ok a ∧
      Assembly.load a.dump = .error
        (.notSegment (.list [.symbol "namespace", .text "", .list [.symbol "type", .text "Bar"]])) := by
  refine ⟨⟨"Tests", ⟨"", "", [.space "A" "" [.space "" "A" [.type ⟨"Bar", "A.", "", []⟩]]]⟩⟩, rfl, ?_⟩
  rw [Assembly.load_dump]
  rfl

end TierHost
