import TierHost.Proofs.Symbols.RoundTrip

/-!
The grammar of dumps. A form is read exactly if it denotes symbols, and these are what is read; any
other form is refused with an error that is true of a form inside it.
-/

namespace TierHost

namespace Dump

/-! Each form starts with a symbol and then a text, the name, which only a compilation may leave out.
Behind the name stand the forms of what is inside, in order. -/

/-- A `type` form holds the forms of the nested types. -/
inductive DenotesType : Sexp → NamedType → Prop
  | type {name space outer : String} {parts : List Sexp} {nested : List NamedType}
      (inside : List.Forall₂ DenotesType parts nested) :
      DenotesType (.list (.symbol "type" :: .text name :: parts)) ⟨name, space, outer, nested⟩

/-- A `namespace` form has a name of one segment and holds the forms of its members; a `type` form is
the other kind of member. -/
inductive DenotesMember : Sexp → Member → Prop
  | space {name parent : String} {parts : List Sexp} {members : List Member} (named : name ≠ "")
      (dotless : '.' ∉ name.toList) (inside : List.Forall₂ DenotesMember parts members) :
      DenotesMember (.list (.symbol "namespace" :: .text name :: parts)) (.space name parent members)
  | type {form : Sexp} {t : NamedType} (denotes : DenotesType form t) :
      DenotesMember form (.type t)

/-- An `assembly` form holds the forms of the members of the global namespace. -/
inductive DenotesAssembly : Sexp → Assembly → Prop
  | assembly {name parent : String} {parts : List Sexp} {members : List Member}
      (inside : List.Forall₂ DenotesMember parts members) :
      DenotesAssembly (.list (.symbol "assembly" :: .text name :: parts)) ⟨name, ⟨"", parent, members⟩⟩

/-- A `compilation` form may have a name, and holds the forms of the referenced assemblies. -/
inductive DenotesCompilation : Sexp → Compilation → Prop
  | named {name : String} {parts : List Sexp} {references : List Assembly}
      (inside : List.Forall₂ DenotesAssembly parts references) :
      DenotesCompilation (.list (.symbol "compilation" :: .text name :: parts))
        ⟨some name, references⟩
  | unnamed {parts : List Sexp} {references : List Assembly}
      (inside : List.Forall₂ DenotesAssembly parts references) :
      DenotesCompilation (.list (.symbol "compilation" :: parts)) ⟨none, references⟩

/-- A type is denoted by its own form only. -/
theorem denotesType_iff {form : Sexp} {t : NamedType} : DenotesType form t ↔ typeForm t = form := by
  induction t using NamedType.induction generalizing form with
  | type name space outer nested ih =>
    have hnested (parts : List Sexp) :
        List.Forall₂ DenotesType parts nested ↔ nested.map typeForm = parts ∧ ∀ t ∈ nested, True :=
      forall₂_iff_map fun t ht part => (ih t ht).trans (and_iff_left trivial).symm
    rw [typeForm_mk]
    constructor
    · intro h
      cases h with
      | type inside => rw [((hnested _).mp inside).1]
    · intro h
      rw [← h]
      exact .type ((hnested _).mpr ⟨rfl, fun _ _ => trivial⟩)

/-- A member is denoted by its own form only, and only if its namespaces have names of one segment. -/
theorem denotesMember_iff {form : Sexp} {m : Member} :
    DenotesMember form m ↔ memberForm m = form ∧ m.Segmented := by
  induction m using Member.induction generalizing form with
  | space name parent members ih =>
    have hmembers (parts : List Sexp) :
        List.Forall₂ DenotesMember parts members ↔
          members.map memberForm = parts ∧ ∀ m ∈ members, m.Segmented :=
      forall₂_iff_map fun m hm part => ih m hm
    rw [memberForm_space]
    constructor
    · intro h
      cases h with
      | space named dotless inside =>
        obtain ⟨hforms, hsegmented⟩ := (hmembers _).mp inside
        rw [hforms]
        exact ⟨rfl, .space named dotless hsegmented⟩
    · intro h
      obtain ⟨hform, hsegmented⟩ := h
      rw [← hform]
      cases hsegmented with
      | space named dotless inside => exact .space named dotless ((hmembers _).mpr ⟨rfl, inside⟩)
  | type t =>
    rw [memberForm, ← denotesType_iff]
    constructor
    · intro h
      cases h with
      | type denotes => exact ⟨denotes, .type t⟩
    · exact fun h => .type h.1

theorem denotesAssembly_iff {form : Sexp} {a : Assembly} :
    DenotesAssembly form a ↔ assemblyForm a = form ∧ a.Segmented := by
  have hmembers (parts : List Sexp) (members : List Member) :
      List.Forall₂ DenotesMember parts members ↔
        members.map memberForm = parts ∧ ∀ m ∈ members, m.Segmented :=
    forall₂_iff_map fun m hm part => denotesMember_iff
  rw [assemblyForm, memberForms_eq_map]
  constructor
  · intro h
    cases h with
    | assembly inside =>
      obtain ⟨hforms, hsegmented⟩ := (hmembers _ _).mp inside
      rw [hforms]
      exact ⟨rfl, rfl, hsegmented⟩
  · intro h
    obtain ⟨hform, unnamed, inside⟩ := h
    obtain ⟨name, root, parent, members⟩ := a
    obtain rfl : root = "" := unnamed
    rw [← hform]
    exact .assembly ((hmembers _ _).mpr ⟨rfl, inside⟩)

theorem denotesCompilation_iff {form : Sexp} {c : Compilation} :
    DenotesCompilation form c ↔ compilationForm c = form ∧ c.Segmented := by
  have hreferences (parts : List Sexp) (references : List Assembly) :
      List.Forall₂ DenotesAssembly parts references ↔
        references.map assemblyForm = parts ∧ ∀ a ∈ references, a.Segmented :=
    forall₂_iff_map fun a ha part => denotesAssembly_iff
  constructor
  · intro h
    cases h with
    | named inside =>
      obtain ⟨hforms, hsegmented⟩ := (hreferences _ _).mp inside
      rw [← hforms]
      exact ⟨rfl, hsegmented⟩
    | unnamed inside =>
      obtain ⟨hforms, hsegmented⟩ := (hreferences _ _).mp inside
      rw [← hforms]
      exact ⟨rfl, hsegmented⟩
  · intro h
    obtain ⟨hform, hsegmented⟩ := h
    obtain ⟨name, references⟩ := c
    rw [← hform]
    have inside := (hreferences _ references).mpr ⟨rfl, hsegmented⟩
    cases name with
    | none => exact .unnamed inside
    | some name => exact .named inside

/-- What is read is what the form denotes, with all paths in place. -/
theorem loadCompilationForm_eq_ok_iff {form : Sexp} {c : Compilation} :
    loadCompilationForm form = .ok c ↔ DenotesCompilation form c ∧ c.Placed := by
  rw [loadCompilationForm_iff, denotesCompilation_iff, and_assoc, and_congr_right_iff]
  exact fun _ => and_comm

/-- What a form denotes can be put in place. -/
theorem DenotesCompilation.exists_placed {form : Sexp} {c : Compilation}
    (h : DenotesCompilation form c) : ∃ d, DenotesCompilation form d ∧ d.Placed := by
  obtain ⟨hform, hsegmented⟩ := denotesCompilation_iff.mp h
  obtain ⟨d, ⟨hplaced, hd⟩, hname, hforms⟩ := Compilation.Segmented.exists_placed hsegmented
  have hdform : compilationForm d = form := (Compilation.compilationForm_congr hname hforms).trans hform
  exact ⟨d, denotesCompilation_iff.mpr ⟨hdform, hd⟩, hplaced⟩

end Dump

/-- Induction over an expression and those in its parenthesised lists. -/
@[elab_as_elim]
theorem Sexp.induction {motive : Sexp → Prop}
    (list : ∀ items, (∀ item ∈ items, motive item) → motive (.list items))
    (other : ∀ e, (∀ items, e ≠ .list items) → motive e) : ∀ e, motive e
  | .list items => list items fun item _ => Sexp.induction list other item
  | .symbol _ => other _ nofun
  | .text _ => other _ nofun
  | .whole _ => other _ nofun
  | .real _ => other _ nofun
  | .truth => other _ nofun
  | .brackets _ => other _ nofun
  | .quoted _ => other _ nofun

/-- An expression stands in another one, as it is or in its parenthesised lists. -/
inductive Sexp.Within (e : Sexp) : Sexp → Prop
  | self : Within e e
  | item {item : Sexp} {items : List Sexp} (mem : item ∈ items) (within : e.Within item) :
      Within e (.list items)

/-- What an error says is true of the form that it is about. -/
inductive DumpError.Fits : DumpError → Sexp → Prop
  | notForm {form : Sexp} (h : ∀ head body, form ≠ .list (head :: body)) : Fits (.notForm form) form
  | notSymbol {head : Sexp} {body : List Sexp} (h : ∀ tag, head ≠ .symbol tag) :
      Fits (.notSymbol head) (.list (head :: body))
  | noName {tag : String} {body : List Sexp} (h : ∀ name rest, body ≠ .text name :: rest) :
      Fits (.noName tag (.list (.symbol tag :: body))) (.list (.symbol tag :: body))
  | notNestedType {tag : String} {body : List Sexp} (h : tag ≠ "type") :
      Fits (.notNestedType (.list (.symbol tag :: body))) (.list (.symbol tag :: body))
  | notMember {tag : String} {body : List Sexp} (h : tag ≠ "namespace") (h' : tag ≠ "type") :
      Fits (.notMember tag (.list (.symbol tag :: body))) (.list (.symbol tag :: body))
  | notSegment {name : String} {body : List Sexp} (h : name = "" ∨ '.' ∈ name.toList) :
      Fits (.notSegment (.list (.symbol "namespace" :: .text name :: body)))
        (.list (.symbol "namespace" :: .text name :: body))
  | notAssembly {tag : String} {body : List Sexp} (h : tag ≠ "assembly") :
      Fits (.notAssembly (.list (.symbol tag :: body))) (.list (.symbol tag :: body))
  | notCompilation {tag : String} {body : List Sexp} (h : tag ≠ "compilation") :
      Fits (.notCompilation (.list (.symbol tag :: body))) (.list (.symbol tag :: body))

/-- An error is true of some form that stands in an expression. -/
def DumpError.Blames (e : DumpError) (form : Sexp) : Prop := ∃ f, e.Fits f ∧ f.Within form

theorem DumpError.Fits.blames {e : DumpError} {form : Sexp} (h : e.Fits form) : e.Blames form :=
  ⟨form, h, .self⟩

theorem DumpError.Blames.item {e : DumpError} {item : Sexp} {items : List Sexp} (mem : item ∈ items)
    (h : e.Blames item) : e.Blames (.list items) := by
  obtain ⟨f, hfits, hwithin⟩ := h
  exact ⟨f, hfits, .item mem hwithin⟩

namespace Dump

/-- A form without a tag is refused for that, and with one it is read on behind the tag. -/
theorem fits_or_tagged {α : Type} {next : Sexp → List Sexp → String → Except DumpError α}
    {form : Sexp} {e : DumpError}
    (h : (match form with
      | .list (head :: body) => tagOf head >>= next head body
      | form => .error (.notForm form)) = .error e) :
    e.Fits form ∨
      ∃ tag body, form = .list (.symbol tag :: body) ∧ next (.symbol tag) body tag = .error e := by
  split at h
  · next head body =>
    cases head with
    | symbol tag => exact Or.inr ⟨tag, body, rfl, h⟩
    | _ =>
      apply Or.inl
      cases h
      exact .notSymbol fun tag => by simp
  · next hform =>
    cases h
    exact Or.inl (.notForm fun head body hf => hform head body hf)

/-- A form with a tag but without a name is refused for that, and with one it is read on behind it. -/
theorem fits_or_named {α : Type} {next : String → List Sexp → Except DumpError α} {tag : String}
    {body : List Sexp} {e : DumpError}
    (h : (match body with
      | .text name :: parts => next name parts
      | _ => .error (.noName tag (.list (.symbol tag :: body)))) = .error e) :
    e.Fits (.list (.symbol tag :: body)) ∨
      ∃ name parts, body = .text name :: parts ∧ next name parts = .error e := by
  split at h
  · next name parts => exact Or.inr ⟨name, parts, rfl, h⟩
  · next hbody =>
    cases h
    exact Or.inl (.noName fun name rest hb => hbody name rest hb)

/-- A form is not read as a type for its own sake, or for that of the types nested in it. -/
theorem loadType_eq_error {space outer : String} {form : Sexp} {e : DumpError}
    (h : loadType space outer form = .error e) :
    e.Fits form ∨ ∃ name parts, form = .list (.symbol "type" :: .text name :: parts) ∧
      parts.mapM (loadType space (extendPath outer name)) = .error e := by
  unfold loadType at h
  rcases fits_or_tagged h with hfits | ⟨tag, body, rfl, hbody⟩
  · exact Or.inl hfits
  dsimp only at hbody
  by_cases htag : tag = "type"
  · subst htag
    rw [if_neg (by simp)] at hbody
    rcases fits_or_named hbody with hfits | ⟨name, parts, rfl, hparts⟩
    · exact Or.inl hfits
    · rw [loadTypes_eq_mapM] at hparts
      rcases (except_bind_eq_error _ _ _).mp hparts with h | ⟨nested, -, h⟩
      · exact Or.inr ⟨name, parts, rfl, h⟩
      · cases h
  · rw [if_pos (by simpa using htag)] at hbody
    cases hbody
    exact Or.inl (.notNestedType htag)

/-- A form is not read as a member for its own sake, as a type, or for that of the members inside. -/
theorem loadMember_eq_error {path : String} {form : Sexp} {e : DumpError}
    (h : loadMember path form = .error e) :
    e.Fits form ∨ loadType path "" form = .error e ∨
      ∃ name parts, form = .list (.symbol "namespace" :: .text name :: parts) ∧
        parts.mapM (loadMember (extendPath path name)) = .error e := by
  unfold loadMember at h
  rcases fits_or_tagged h with hfits | ⟨tag, body, rfl, hbody⟩
  · exact Or.inl hfits
  dsimp only at hbody
  by_cases hspace : tag = "namespace"
  · subst hspace
    rw [if_pos rfl] at hbody
    rcases fits_or_named hbody with hfits | ⟨name, parts, rfl, hparts⟩
    · exact Or.inl hfits
    by_cases hname : (name.isEmpty || name.toList.contains '.') = true
    · rw [if_pos hname] at hparts
      cases hparts
      exact Or.inl (.notSegment (by simpa using hname))
    · rw [if_neg hname, loadMembers_eq_mapM] at hparts
      rcases (except_bind_eq_error _ _ _).mp hparts with h | ⟨members, -, h⟩
      · exact Or.inr (Or.inr ⟨name, parts, rfl, h⟩)
      · cases h
  · rw [if_neg hspace] at hbody
    by_cases htype : tag = "type"
    · rw [if_pos htype] at hbody
      rcases (except_bind_eq_error _ _ _).mp hbody with h | ⟨t, -, h⟩
      · exact Or.inr (Or.inl h)
      · cases h
    · rw [if_neg htype] at hbody
      cases hbody
      exact Or.inl (.notMember hspace htype)

theorem loadAssemblyForm_eq_error {form : Sexp} {e : DumpError}
    (h : loadAssemblyForm form = .error e) :
    e.Fits form ∨ ∃ name parts, form = .list (.symbol "assembly" :: .text name :: parts) ∧
      parts.mapM (loadMember "") = .error e := by
  unfold loadAssemblyForm at h
  rcases fits_or_tagged h with hfits | ⟨tag, body, rfl, hbody⟩
  · exact Or.inl hfits
  dsimp only at hbody
  by_cases htag : tag = "assembly"
  · subst htag
    rw [if_neg (by simp)] at hbody
    rcases fits_or_named hbody with hfits | ⟨name, parts, rfl, hparts⟩
    · exact Or.inl hfits
    · rw [loadMembers_eq_mapM] at hparts
      rcases (except_bind_eq_error _ _ _).mp hparts with h | ⟨members, -, h⟩
      · exact Or.inr ⟨name, parts, rfl, h⟩
      · cases h
  · rw [if_pos (by simpa using htag)] at hbody
    cases hbody
    exact Or.inl (.notAssembly htag)

theorem loadCompilationForm_eq_error {form : Sexp} {e : DumpError}
    (h : loadCompilationForm form = .error e) :
    e.Fits form ∨ ∃ front parts, form = .list (front ++ parts) ∧
      parts.mapM loadAssemblyForm = .error e := by
  unfold loadCompilationForm at h
  rcases fits_or_tagged h with hfits | ⟨tag, body, rfl, hbody⟩
  · exact Or.inl hfits
  dsimp only at hbody
  by_cases htag : tag = "compilation"
  · subst htag
    rw [if_neg (by simp)] at hbody
    rcases (except_bind_eq_error _ _ _).mp hbody with h | ⟨references, -, h⟩
    · -- the name, if there is one, stands in front of the references
      split at h
      · next name parts _ => exact Or.inr ⟨[.symbol "compilation", .text name], parts, rfl, h⟩
      · exact Or.inr ⟨[.symbol "compilation"], body, rfl, h⟩
    · cases h
  · rw [if_pos (by simpa using htag)] at hbody
    cases hbody
    exact Or.inl (.notCompilation htag)

/-- If reading several forms one by one fails, one of them is to blame. -/
theorem blames_of_mapM {α : Type} {load : Sexp → Except DumpError α} {parts : List Sexp}
    {e : DumpError} (front : List Sexp)
    (hload : ∀ part ∈ parts, load part = .error e → e.Blames part)
    (h : parts.mapM load = .error e) : e.Blames (.list (front ++ parts)) := by
  obtain ⟨part, hpart, he⟩ := exists_of_mapM_eq_error h
  exact (hload part hpart he).item (List.mem_append_right front hpart)

theorem blames_of_loadType {space outer : String} {form : Sexp} {e : DumpError}
    (h : loadType space outer form = .error e) : e.Blames form := by
  induction form using Sexp.induction generalizing outer with
  | list items ih =>
    rcases loadType_eq_error h with hfits | ⟨name, parts, hform, hparts⟩
    · exact hfits.blames
    · cases hform
      apply blames_of_mapM [.symbol "type", .text name] _ hparts
      exact fun part hpart he => ih part (by simp [hpart]) he
  | other form hother =>
    rcases loadType_eq_error h with hfits | ⟨name, parts, hform, -⟩
    · exact hfits.blames
    · exact absurd hform (hother _)

theorem blames_of_loadMember {path : String} {form : Sexp} {e : DumpError}
    (h : loadMember path form = .error e) : e.Blames form := by
  induction form using Sexp.induction generalizing path with
  | list items ih =>
    rcases loadMember_eq_error h with hfits | h | ⟨name, parts, hform, hparts⟩
    · exact hfits.blames
    · exact blames_of_loadType h
    · cases hform
      apply blames_of_mapM [.symbol "namespace", .text name] _ hparts
      exact fun part hpart he => ih part (by simp [hpart]) he
  | other form hother =>
    rcases loadMember_eq_error h with hfits | h | ⟨name, parts, hform, -⟩
    · exact hfits.blames
    · exact blames_of_loadType h
    · exact absurd hform (hother _)

theorem blames_of_loadAssemblyForm {form : Sexp} {e : DumpError}
    (h : loadAssemblyForm form = .error e) : e.Blames form := by
  rcases loadAssemblyForm_eq_error h with hfits | ⟨name, parts, hform, h⟩
  · exact hfits.blames
  · rw [hform]
    exact blames_of_mapM [.symbol "assembly", .text name]
      (fun part _ he => blames_of_loadMember he) h

theorem blames_of_loadCompilationForm {form : Sexp} {e : DumpError}
    (h : loadCompilationForm form = .error e) : e.Blames form := by
  rcases loadCompilationForm_eq_error h with hfits | ⟨front, parts, hform, h⟩
  · exact hfits.blames
  · rw [hform]
    exact blames_of_mapM front (fun part _ he => blames_of_loadAssemblyForm he) h

/-- A form is read as what it denotes, or else it denotes nothing and an error says why. -/
theorem loadCompilationForm_cases (form : Sexp) :
    (∃ c, DenotesCompilation form c ∧ c.Placed ∧ loadCompilationForm form = .ok c) ∨
      (∀ c, ¬ DenotesCompilation form c) ∧
        ∃ e, loadCompilationForm form = .error e ∧ e.Blames form := by
  cases hload : loadCompilationForm form with
  | ok c =>
    obtain ⟨hdenotes, hplaced⟩ := loadCompilationForm_eq_ok_iff.mp hload
    exact Or.inl ⟨c, hdenotes, hplaced, rfl⟩
  | error e =>
    refine Or.inr ⟨?_, e, rfl, blames_of_loadCompilationForm hload⟩
    intro c hc
    obtain ⟨d, hd⟩ := hc.exists_placed
    have hok := loadCompilationForm_eq_ok_iff.mpr hd
    rw [hload] at hok
    cases hok

end Dump

/-- Dumps are read by their grammar. Of all expressions, exactly those that denote a compilation are
read as one, and as the one that they denote, with all paths in place; every other expression is refused
with an error that is true of a form in it. So it goes for every text that holds an expression, and a
text that holds none is refused as unreadable. -/
theorem Compilation.load_by_grammar :
    (∀ form,
      (∃ c, Dump.DenotesCompilation form c ∧ c.Placed ∧ Dump.loadCompilationForm form = .ok c) ∨
      (∀ c, ¬ Dump.DenotesCompilation form c) ∧
        ∃ e, Dump.loadCompilationForm form = .error e ∧ e.Blames form) ∧
    (∀ text,
      (∃ form, Sexp.read text = .ok form ∧ load text = Dump.loadCompilationForm form) ∨
      ∃ cause, Sexp.read text = .error cause ∧ load text = .error (.unreadable cause)) := by
  refine ⟨Dump.loadCompilationForm_cases, ?_⟩
  intro text
  rw [load]
  cases Sexp.read text with
  | ok form => exact Or.inl ⟨form, rfl, rfl⟩
  | error cause => exact Or.inr ⟨cause, rfl, rfl⟩

end TierHost
