import TierHost.Proofs.Symbols.Placed
import TierHost.Proofs.Text.Decimal
import TierHost.Proofs.Text.Front
import TierHost.Symbols.Outline

/-!
What outlines tell: the outline of a member follows from its form in a dump, and unless a name holds
a line feed the text of an outline tells all names and forms that are in it.
-/

namespace TierHost

namespace Member

/-- The kind of a member, as dumps and outlines write it. -/
def tag : Member → String
  | .space _ _ _ => "namespace"
  | .type _ => "type"

/-- The simple name of a member. -/
def name : Member → String
  | .space name _ _ => name
  | .type t => t.name

/-- The outline of a member at a depth. -/
def outline (depth : Nat) (m : Member) : List String :=
  (preorderFrom [(depth, m)]).map fun (depth, m) => m.line depth

/-- The outlines of members at the same depth, one after the other. -/
def outlines (depth : Nat) (ms : List Member) : List String := ms.flatMap (outline depth)

/-- Induction over a member and what is directly inside it. -/
@[elab_as_elim]
theorem induction_children {motive : Member → Prop}
    (inside : ∀ m : Member, (∀ child ∈ m.children, motive child) → motive m) (m : Member) :
    motive m := by
  have htype (t : NamedType) : motive (.type t) := by
    induction t using NamedType.induction with
    | type name space outer nested ih =>
      apply inside
      intro child hc
      obtain ⟨t, ht, rfl⟩ := List.mem_map.mp hc
      exact ih t ht
  induction m using Member.induction with
  | space name parent members ih => exact inside _ ih
  | type t => exact htype t

theorem form_eq (m : Member) :
    Dump.memberForm m =
      .list (.symbol m.tag :: .text m.name :: m.children.map Dump.memberForm) := by
  cases m with
  | space name parent members => exact Dump.memberForm_space name parent members
  | type t =>
    rcases t with ⟨name, space, outer, nested⟩
    rw [Dump.memberForm, Dump.typeForm_mk, children, List.map_map]
    rfl

theorem form_eq_iff {m n : Member} :
    Dump.memberForm m = Dump.memberForm n ↔
      m.tag = n.tag ∧ m.name = n.name ∧
        m.children.map Dump.memberForm = n.children.map Dump.memberForm := by
  rw [form_eq, form_eq]
  simp only [Sexp.list.injEq, List.cons.injEq, Sexp.symbol.injEq, Sexp.text.injEq]

theorem line_eq (depth : Nat) (m : Member) :
    m.line depth = toString depth ++ ":" ++ (m.tag ++ ":" ++ m.name) := by
  cases m with
  | space name parent members =>
    rw [line, String.append_assoc, String.append_assoc]
    rfl
  | type t =>
    rw [line, String.append_assoc, String.append_assoc]
    rfl

theorem line_eq_head (depth : Nat) (m : Member) :
    m.line depth = toString depth ++ ":" ++ (m.tag ++ ":") ++ m.name := by
  rw [line_eq]
  exact String.append_assoc.symm

/-- Symbols at the same depth are taken one after the other. -/
theorem preorderFrom_map (depth : Nat) (ms : List Member) :
    preorderFrom (ms.map fun m => (depth, m)) =
      ms.flatMap fun m => preorderFrom [(depth, m)] := by
  induction ms with
  | nil => rw [List.map_nil, preorderFrom, List.flatMap_nil]
  | cons m ms ih =>
    rw [List.map_cons, ← List.singleton_append, preorderFrom_append, ih, List.flatMap_cons]

theorem map_preorderFrom (depth : Nat) (ms : List Member) :
    (preorderFrom (ms.map fun m => (depth, m))).map (fun (depth, m) => m.line depth) =
      outlines depth ms := by
  rw [preorderFrom_map, List.map_flatMap]
  rfl

theorem outline_eq (depth : Nat) (m : Member) :
    m.outline depth = m.line depth :: outlines (depth + 1) m.children := by
  rw [outline, preorderFrom, List.append_nil, List.map_cons, map_preorderFrom]

theorem outline_eq_of_form {m n : Member} (h : Dump.memberForm m = Dump.memberForm n)
    (depth : Nat) : m.outline depth = n.outline depth := by
  induction m using induction_children generalizing n depth with
  | inside m ih =>
    obtain ⟨ht, hn, hc⟩ := form_eq_iff.mp h
    have hi : m.children.map (outline (depth + 1)) = n.children.map (outline (depth + 1)) :=
      map_eq_of_map_eq (fun child hm _ _ he => ih child hm he (depth + 1)) hc
    rw [outline_eq, outline_eq, line_eq, line_eq, ht, hn, outlines, outlines, List.flatMap_def,
      List.flatMap_def, hi]

theorem notMem_tag {c : Char} (hc : c ∉ "namespace".toList) (hc' : c ∉ "type".toList)
    (m : Member) : c ∉ m.tag.toList := by
  cases m with
  | space => exact hc
  | type => exact hc'

theorem append_colon_inj {s s' t t' : String} (hs : ':' ∉ s.toList) (hs' : ':' ∉ s'.toList)
    (h : s ++ ":" ++ t = s' ++ ":" ++ t') : s = s' ∧ t = t' := by
  have hl := congrArg String.toList h
  simp only [String.toList_append, List.append_assoc] at hl
  obtain ⟨h1, h2⟩ := Text.cut_inj hs hs' hl
  exact ⟨String.toList_inj.mp h1, String.toList_inj.mp h2⟩

/-- The line of a symbol tells its depth, its kind and its name. -/
theorem line_inj {depth depth' : Nat} {m n : Member} (h : m.line depth = n.line depth') :
    depth = depth' ∧ m.tag = n.tag ∧ m.name = n.name := by
  rw [line_eq, line_eq] at h
  obtain ⟨hd, h⟩ := append_colon_inj (Text.notMem_toString (by decide) depth)
    (Text.notMem_toString (by decide) depth') h
  have htag (m : Member) : ':' ∉ m.tag.toList := m.notMem_tag (by decide) (by decide)
  exact ⟨Text.toString_inj hd, append_colon_inj (htag m) (htag n) h⟩

/-- The lines do not go on with a symbol at this depth or below it. -/
def Shallow (depth : Nat) (lines : List String) : Prop :=
  ∀ (m : Member) (below : Nat) (rest : List String), lines = m.line below :: rest → below < depth

theorem Shallow.nil (depth : Nat) : Shallow depth [] := by
  intro m below rest h
  cases h

theorem Shallow.mono {depth depth' : Nat} {lines : List String} (h : Shallow depth lines)
    (hd : depth ≤ depth') : Shallow depth' lines :=
  fun m below rest he => (h m below rest he).trans_le hd

theorem outlines_cons (depth : Nat) (m : Member) (ms : List Member) :
    outlines depth (m :: ms) = m.outline depth ++ outlines depth ms := List.flatMap_cons

theorem shallow_outlines_append {depth : Nat} {lines : List String} (h : Shallow depth lines)
    (ms : List Member) : Shallow (depth + 1) (outlines depth ms ++ lines) := by
  cases ms with
  | nil => exact h.mono (Nat.le_succ depth)
  | cons m ms =>
    intro n below rest he
    rw [outlines_cons, outline_eq, List.cons_append, List.cons_append] at he
    obtain ⟨hd, -, -⟩ := line_inj (List.cons.inj he).1
    omega

theorem not_shallow_outlines {depth : Nat} {lines : List String} (m : Member) (ms : List Member) :
    ¬ Shallow depth (outlines depth (m :: ms) ++ lines) := by
  intro h
  rw [outlines_cons, outline_eq] at h
  exact Nat.lt_irrefl depth (h m depth _ rfl)

/-- Lines that start with the outline of the member start so in one way, up to where they stop being
deeper than it. -/
def OneReading (m : Member) : Prop :=
  ∀ (n : Member) (depth : Nat) (lines lines' : List String), Shallow (depth + 1) lines →
    Shallow (depth + 1) lines' → m.outline depth ++ lines = n.outline depth ++ lines' →
    Dump.memberForm m = Dump.memberForm n ∧ lines = lines'

theorem outlines_append_inj {ms ns : List Member} {depth : Nat} {lines lines' : List String}
    (hms : ∀ m ∈ ms, m.OneReading) (hl : Shallow depth lines) (hl' : Shallow depth lines')
    (h : outlines depth ms ++ lines = outlines depth ns ++ lines') :
    ms.map Dump.memberForm = ns.map Dump.memberForm ∧ lines = lines' := by
  induction ms generalizing ns with
  | nil =>
    have hlines : lines = outlines depth ns ++ lines' := h
    cases ns with
    | nil => exact ⟨rfl, hlines⟩
    | cons n ns => exact absurd (hlines ▸ hl) (not_shallow_outlines n ns)
  | cons m ms ih =>
    cases ns with
    | nil =>
      -- the other side stops here, but another member at this depth follows on this one
      have hlines : outlines depth (m :: ms) ++ lines = lines' := h
      exact absurd (hlines ▸ hl') (not_shallow_outlines m ms)
    | cons n ns =>
      rw [outlines_cons, outlines_cons, List.append_assoc, List.append_assoc] at h
      obtain ⟨hform, h⟩ := hms m List.mem_cons_self n depth _ _
        (shallow_outlines_append hl ms) (shallow_outlines_append hl' ns) h
      obtain ⟨hforms, hlines⟩ := ih (fun m' hm' => hms m' (List.mem_cons_of_mem m hm')) h
      exact ⟨by rw [List.map_cons, List.map_cons, hform, hforms], hlines⟩

/-- An outline tells the form of its member. -/
theorem oneReading (m : Member) : m.OneReading := by
  induction m using induction_children with
  | inside m ih =>
    -- the first line tells the kind and the name, and the deeper lines behind it the children
    intro n depth lines lines' hl hl' h
    rw [outline_eq, outline_eq, List.cons_append, List.cons_append] at h
    obtain ⟨hline, h⟩ := List.cons.inj h
    obtain ⟨-, htag, hname⟩ := line_inj hline
    obtain ⟨hforms, hlines⟩ := outlines_append_inj ih hl hl' h
    exact ⟨form_eq_iff.mpr ⟨htag, hname, hforms⟩, hlines⟩

end Member

namespace Assembly

theorem outline_eq (a : Assembly) :
    a.outline = ("assembly:" ++ a.name) :: a.root.toMember.outline 1 := rfl

/-- The line of an assembly is that of no symbol. -/
theorem shallow_cons (name : String) (lines : List String) :
    Member.Shallow 2 (("assembly:" ++ name) :: lines) := by
  intro m below rest he
  have h := (List.cons.inj he).1
  rw [Member.line_eq] at h
  have hc : ':' ∉ "assembly".toList := by decide
  obtain ⟨hd, -⟩ := Member.append_colon_inj (s := "assembly") hc
    (Text.notMem_toString (by decide) below) h
  -- a depth is written with digits only
  have ha : 'a' ∈ (toString below).toList := hd ▸ List.mem_cons_self
  exact absurd ha (Text.notMem_toString (by decide) below)

theorem shallow_flatMap_outline (as : List Assembly) :
    Member.Shallow 2 (as.flatMap outline) := by
  cases as with
  | nil => exact Member.Shallow.nil 2
  | cons a as =>
    rw [List.flatMap_cons, outline_eq, List.cons_append]
    exact shallow_cons a.name _

/-- The outlines of assemblies tell their names and the forms of their global namespaces. -/
theorem flatMap_outline_inj {as bs : List Assembly}
    (h : as.flatMap outline = bs.flatMap outline) :
    as.map (fun a => (a.name, Dump.memberForm a.root.toMember)) =
      bs.map (fun b => (b.name, Dump.memberForm b.root.toMember)) := by
  induction as generalizing bs with
  | nil =>
    cases bs with
    | nil => rfl
    | cons b bs => cases h
  | cons a as ih =>
    cases bs with
    | nil => cases h
    | cons b bs =>
      rw [List.flatMap_cons, List.flatMap_cons, outline_eq, outline_eq, List.cons_append,
        List.cons_append] at h
      obtain ⟨hname, h⟩ := List.cons.inj h
      obtain ⟨hform, h⟩ := a.root.toMember.oneReading b.root.toMember 1 _ _
        (shallow_flatMap_outline as) (shallow_flatMap_outline bs) h
      have hn : a.name = b.name := by simpa using hname
      rw [List.map_cons, List.map_cons, hn, hform, ih h]

end Assembly

namespace Outline

/-- What a line of an outline starts with, unless it is the first one. -/
inductive Head : String → Prop
  | assembly : Head "assembly:"
  | symbol (depth : Nat) (m : Member) : Head (toString depth ++ ":" ++ (m.tag ++ ":"))

/-- The text starts like a line of an outline. -/
def StartsLine (s : List Char) : Prop := ∃ head, Head head ∧ head.toList <+: s

/-- No line feed of the text is followed by what looks like another line of an outline. -/
def Unforged (s : List Char) : Prop := ∀ u v, s = u ++ '\n' :: v → ¬ StartsLine v

theorem Head.feed_notMem {head : String} (h : Head head) : '\n' ∉ head.toList := by
  cases h with
  | assembly => decide
  | symbol depth m =>
    have hdepth : '\n' ∉ (toString depth).toList := Text.notMem_toString (by decide) depth
    have htag : '\n' ∉ m.tag.toList := m.notMem_tag (by decide) (by decide)
    have hcolon : '\n' ∉ ":".toList := by decide
    simp only [String.toList_append, List.mem_append, not_or]
    exact ⟨⟨hdepth, hcolon⟩, htag, hcolon⟩

theorem unforged_of_notMem {s : List Char} (h : '\n' ∉ s) : Unforged s := by
  intro u v huv
  exact absurd (huv ▸ List.mem_append_right u List.mem_cons_self) h

theorem Head.colon_mem {head : String} (h : Head head) : ':' ∈ head.toList := by
  cases h with
  | assembly => decide
  | symbol depth m =>
    simp only [String.toList_append]
    exact List.mem_append_left _ (List.mem_append_right _ List.mem_cons_self)

/-- A line feed at the end forges no line, since none is empty. -/
theorem unforged_feed {s : List Char} (h : '\n' ∉ s) : Unforged (s ++ ['\n']) := by
  rintro u v huv ⟨head, hhead, hfront⟩
  rcases List.eq_nil_or_concat' v with rfl | ⟨w, c, rfl⟩
  · exact List.not_mem_nil (hfront.subset hhead.colon_mem)
  · have hcut : s ++ ['\n'] = (u ++ '\n' :: w) ++ [c] := by
      rw [huv, List.append_assoc, List.cons_append]
    obtain ⟨rfl, -⟩ := List.append_inj' hcut rfl
    exact h (List.mem_append_right u List.mem_cons_self)

/-- A line is not forged if the name at its end is not. -/
theorem Unforged.append {front name : List Char} (hfront : '\n' ∉ front) (h : Unforged name) :
    Unforged (front ++ name) := by
  intro u v huv
  rcases List.append_eq_append_iff.mp huv with ⟨t, -, hname⟩ | ⟨t, ht, hname⟩
  · exact h t v hname
  · cases t with
    | nil => exact h [] v hname.symm
    | cons c t =>
      obtain rfl := (List.cons.inj hname).1
      exact absurd (ht ▸ List.mem_append_right u List.mem_cons_self) hfront

theorem StartsLine.append {s : List Char} (h : StartsLine s) (t : List Char) :
    StartsLine (s ++ t) := by
  obtain ⟨head, hhead, hfront⟩ := h
  exact ⟨head, hhead, hfront.trans (List.prefix_append s t)⟩

theorem startsLine_of_append {s rest : List Char} (h : StartsLine (s ++ '\n' :: rest)) :
    StartsLine s := by
  obtain ⟨head, hhead, hfront⟩ := h
  exact ⟨head, hhead, Text.prefix_of_notMem hhead.feed_notMem hfront⟩

/-- Of two ways to take a first line off a text, the one whose rest starts a line is not the
shorter. -/
theorem Unforged.length_le {line line' rest rest' : List Char} (h' : Unforged line')
    (hr : rest = [] ∨ StartsLine rest) (he : line ++ '\n' :: rest = line' ++ '\n' :: rest') :
    line'.length ≤ line.length := by
  rcases List.append_eq_append_iff.mp he with ⟨t, ht, hrest⟩ | ⟨t, ht, -⟩
  · cases t with
    | nil => rw [ht, List.append_nil]
    | cons c w =>
      obtain ⟨rfl, rfl⟩ := List.cons.inj hrest
      -- the other line goes on with what starts a line here
      rcases hr with hnil | hstart
      · exact absurd hnil (List.append_ne_nil_of_right_ne_nil w (List.cons_ne_nil _ _))
      · exact absurd (startsLine_of_append hstart) (h' line w ht)
  · rw [ht, List.length_append]
    exact Nat.le_add_right _ _

/-- The text of lines that are not forged tells the lines. -/
theorem lines_inj {lines lines' : List String} (h : ∀ line ∈ lines, Unforged line.toList)
    (h' : ∀ line ∈ lines', Unforged line.toList) (hs : ∀ line ∈ lines.tail, StartsLine line.toList)
    (hs' : ∀ line ∈ lines'.tail, StartsLine line.toList)
    (he : (lines.flatMap fun line => line.toList ++ ['\n']) =
      lines'.flatMap fun line => line.toList ++ ['\n']) : lines = lines' := by
  have hrest (lines : List String) (hs : ∀ line ∈ lines, StartsLine line.toList) :
      (lines.flatMap fun line => line.toList ++ ['\n']) = [] ∨
        StartsLine (lines.flatMap fun line => line.toList ++ ['\n']) := by
    cases lines with
    | nil => exact Or.inl rfl
    | cons line lines =>
      rw [List.flatMap_cons, List.append_assoc]
      exact Or.inr ((hs line List.mem_cons_self).append _)
  induction lines generalizing lines' with
  | nil =>
    cases lines' with
    | nil => rfl
    | cons line' lines' => simp at he
  | cons line lines ih =>
    cases lines' with
    | nil => simp at he
    | cons line' lines' =>
      simp only [List.flatMap_cons, List.append_assoc, List.singleton_append] at he
      -- neither first line is the shorter one, since both rests start lines
      have hle := (h line List.mem_cons_self).length_le (hrest lines' hs') he.symm
      have hle' := (h' line' List.mem_cons_self).length_le (hrest lines hs) he
      obtain ⟨hline, hfeed⟩ := List.append_inj he (Nat.le_antisymm hle hle')
      have hlines : lines = lines' := by
        apply ih
        · exact fun l hl => h l (List.mem_cons_of_mem line hl)
        · exact fun l hl => h' l (List.mem_cons_of_mem line' hl)
        · exact fun l hl => hs l (List.mem_of_mem_tail hl)
        · exact fun l hl => hs' l (List.mem_of_mem_tail hl)
        · exact (List.cons.inj hfeed).2
      rw [String.toList_inj.mp hline, hlines]

end Outline

namespace Compilation

/-- The compilation's own name and the names of its assemblies and symbols have no line feed. -/
structure OneLined (c : Compilation) : Prop where
  name : '\n' ∉ (c.name.getD "").toList
  assembly : ∀ a ∈ c.references, '\n' ∉ a.name.toList
  symbol : ∀ a ∈ c.references, ∀ e ∈ a.preorder, '\n' ∉ e.2.name.toList

/-- No line feed in the compilation's own name, or in the names of its assemblies and symbols, is
followed by what looks like another line of the outline. -/
structure Unforged (c : Compilation) : Prop where
  name : Outline.Unforged (c.name.getD "").toList
  assembly : ∀ a ∈ c.references, Outline.Unforged a.name.toList
  symbol : ∀ a ∈ c.references, ∀ e ∈ a.preorder, Outline.Unforged e.2.name.toList

theorem OneLined.unforged {c : Compilation} (h : c.OneLined) : c.Unforged where
  name := Outline.unforged_of_notMem h.name
  assembly a ha := Outline.unforged_of_notMem (h.assembly a ha)
  symbol a ha e he := Outline.unforged_of_notMem (h.symbol a ha e he)

/-- Every line is a head without line feeds and a name. -/
theorem Unforged.lines {c : Compilation} (h : c.Unforged) :
    ∀ line ∈ c.outline, Outline.Unforged line.toList := by
  have hhead {head name : String} (hh : '\n' ∉ head.toList) (hn : Outline.Unforged name.toList) :
      Outline.Unforged (head ++ name).toList := by
    rw [String.toList_append]
    exact hn.append hh
  intro line hline
  rcases List.mem_cons.mp hline with rfl | hline
  · exact hhead (by decide) h.name
  · obtain ⟨a, ha, hline⟩ := List.mem_flatMap.mp hline
    rcases List.mem_cons.mp hline with rfl | hline
    · exact hhead (by decide) (h.assembly a ha)
    · obtain ⟨⟨depth, m⟩, he, rfl⟩ := List.mem_map.mp hline
      show Outline.Unforged (m.line depth).toList
      rw [Member.line_eq_head]
      exact hhead (Outline.Head.symbol depth m).feed_notMem (h.symbol a ha (depth, m) he)

theorem startsLine_outline (c : Compilation) :
    ∀ line ∈ c.outline.tail, Outline.StartsLine line.toList := by
  have hhead {head : String} (hh : Outline.Head head) (name : String) :
      Outline.StartsLine (head ++ name).toList := by
    rw [String.toList_append]
    exact ⟨head, hh, List.prefix_append _ _⟩
  intro line hline
  obtain ⟨a, -, hline⟩ := List.mem_flatMap.mp hline
  rcases List.mem_cons.mp hline with rfl | hline
  · exact hhead .assembly a.name
  · obtain ⟨⟨depth, m⟩, -, rfl⟩ := List.mem_map.mp hline
    show Outline.StartsLine (m.line depth).toList
    rw [Member.line_eq_head]
    exact hhead (.symbol depth m) m.name

theorem toList_outlineText (c : Compilation) :
    c.outlineText.toList = c.outline.flatMap fun line => line.toList ++ ['\n'] := by
  rw [outlineText, String.toList_join, List.flatMap_map]
  simp only [String.toList_append]
  rfl

/-- The text that a fingerprint is taken of follows from the dump's form. -/
theorem outlineText_eq_of_form {c d : Compilation} (hn : c.name = d.name)
    (h : c.references.map (fun a => (a.name, Dump.memberForm a.root.toMember)) =
      d.references.map (fun a => (a.name, Dump.memberForm a.root.toMember))) :
    c.outlineText = d.outlineText := by
  have ho : c.references.map Assembly.outline = d.references.map Assembly.outline := by
    apply map_eq_of_map_eq _ h
    intro a _ b _ hab
    obtain ⟨hname, hform⟩ := Prod.mk.inj hab
    rw [Assembly.outline_eq, Assembly.outline_eq, hname, Member.outline_eq_of_form hform]
  rw [outlineText, outlineText, outline, outline, hn, List.flatMap_def, List.flatMap_def, ho]

/-- The text that a fingerprint is taken of tells the names and the forms of all that is in it. -/
theorem Unforged.outlineText_inj {c d : Compilation} (hc : c.Unforged) (hd : d.Unforged)
    (h : c.outlineText = d.outlineText) :
    c.name.getD "" = d.name.getD "" ∧
      c.references.map (fun a => (a.name, Dump.memberForm a.root.toMember)) =
        d.references.map (fun a => (a.name, Dump.memberForm a.root.toMember)) := by
  have ht := congrArg String.toList h
  rw [toList_outlineText, toList_outlineText] at ht
  have hlines : c.outline = d.outline :=
    Outline.lines_inj hc.lines hd.lines c.startsLine_outline d.startsLine_outline ht
  obtain ⟨hname, hrefs⟩ := List.cons.inj hlines
  exact ⟨by simpa using hname, Assembly.flatMap_outline_inj hrefs⟩

end Compilation

end TierHost
