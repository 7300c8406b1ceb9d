import TierHost.Proofs.Symbols.Tables

/-!
Trees represent the names that they are built from: they show exactly these names, each one once, in
namespaces that are there once each and for some type below.
-/

namespace TierHost

/-- A member and all that is below it, each with the names of the namespaces around it. -/
def Member.symbols : Member → List (List String × Member)
  | .space name parent members =>
    ([], .space name parent members) ::
      (members.attach.flatMap fun ⟨m, _⟩ => m.symbols).map fun e => (name :: e.1, e.2)
  | .type t => [([], .type t)]

/-- The members and all that is below them. -/
def symbolsIn (members : List Member) : List (List String × Member) :=
  members.flatMap Member.symbols

theorem Member.symbols_space (name parent : String) (members : List Member) :
    (Member.space name parent members).symbols =
      ([], .space name parent members) ::
        (symbolsIn members).map fun e => (name :: e.1, e.2) := by
  rw [symbols, List.flatMap_subtype (g := Member.symbols) (fun m _ => rfl), List.unattach_attach]
  rfl

theorem nil_mem_symbols {m m' : Member} : ([], m) ∈ m'.symbols ↔ m = m' := by
  cases m' with
  | space name parent members => simp [Member.symbols_space]
  | type t => simp [Member.symbols]

theorem nil_mem_symbolsIn {m : Member} {members : List Member} :
    ([], m) ∈ symbolsIn members ↔ m ∈ members := by
  simp [symbolsIn, nil_mem_symbols]

theorem cons_mem_symbols {part : String} {path : List String} {m m' : Member} :
    (part :: path, m) ∈ m'.symbols ↔
      ∃ parent members, m' = .space part parent members ∧ (path, m) ∈ symbolsIn members := by
  cases m' with
  | space name parent members =>
    rw [Member.symbols_space]
    constructor
    · intro h
      obtain ⟨e, he, hp⟩ := List.mem_map.mp (List.mem_of_ne_of_mem (by simp) h)
      obtain ⟨hpath, rfl⟩ := Prod.mk.inj hp
      obtain ⟨rfl, rfl⟩ := List.cons.inj hpath
      exact ⟨parent, members, rfl, he⟩
    · intro h
      obtain ⟨parent', members', he, hm⟩ := h
      cases he
      exact List.mem_cons_of_mem _ (List.mem_map.mpr ⟨_, hm, rfl⟩)
  | type t => simp [Member.symbols]

theorem cons_mem_symbolsIn {part : String} {path : List String} {m : Member}
    {members : List Member} :
    (part :: path, m) ∈ symbolsIn members ↔
      ∃ parent inner, .space part parent inner ∈ members ∧ (path, m) ∈ symbolsIn inner := by
  rw [symbolsIn, List.mem_flatMap]
  constructor
  · intro h
    obtain ⟨m', hm', hm⟩ := h
    obtain ⟨parent, inner, rfl, hinner⟩ := cons_mem_symbols.mp hm
    exact ⟨parent, inner, hm', hinner⟩
  · intro h
    obtain ⟨parent, inner, hspace, hinner⟩ := h
    exact ⟨_, hspace, cons_mem_symbols.mpr ⟨parent, inner, rfl, hinner⟩⟩

theorem Member.nodup_symbols_space {name parent : String} {members : List Member}
    (h : (symbolsIn members).Nodup) : (Member.space name parent members).symbols.Nodup := by
  rw [symbols_space, List.nodup_cons]
  constructor
  · simp
  · apply h.map
    intro e e' he
    obtain ⟨hpath, hm⟩ := Prod.mk.inj he
    exact Prod.ext (List.cons.inj hpath).2 hm

/-- Everything below is there once if that holds below each member, and no two members are namespaces
of the same name. -/
theorem nodup_symbolsIn {members : List Member} (h : members.Nodup)
    (hapart : ∀ part parent parent' inner inner', .space part parent inner ∈ members →
      .space part parent' inner' ∈ members →
        Member.space part parent inner = .space part parent' inner')
    (hinner : ∀ m ∈ members, m.symbols.Nodup) : (symbolsIn members).Nodup := by
  rw [symbolsIn, List.nodup_flatMap]
  refine ⟨hinner, h.pairwise_of_forall_ne ?_⟩
  rintro m hm m' hm' hne ⟨path, n⟩ hn hn'
  apply hne
  cases path with
  | nil => rw [← nil_mem_symbols.mp hn, ← nil_mem_symbols.mp hn']
  | cons part path =>
    obtain ⟨parent, inner, rfl, -⟩ := cons_mem_symbols.mp hn
    obtain ⟨parent', inner', rfl, -⟩ := cons_mem_symbols.mp hn'
    exact hapart part parent parent' inner inner' hm hm'

namespace Mention

/-- What is below a path in a tree is what the mentions along that path build. -/
theorem mem_symbolsIn_tree {text : String} {path : List String} {m : Member} {ms : List Mention} :
    (path, m) ∈ symbolsIn (tree text ms) ↔
      m ∈ tree (path.foldl extendPath text) (below path ms) := by
  induction path generalizing text ms with
  | nil => exact nil_mem_symbolsIn
  | cons part path ih =>
    rw [cons_mem_symbolsIn]
    constructor
    · intro h
      obtain ⟨parent, inner, hspace, hm⟩ := h
      obtain ⟨-, he⟩ := space_mem_tree.mp hspace
      obtain ⟨-, -, rfl⟩ := Member.space.inj he
      exact ih.mp hm
    · intro h
      have hpart : part ∈ spaces ms := by
        by_contra hpart
        -- no mention leads there, so nothing is built
        have hnone : below (part :: path) ms = [] :=
          (congrArg (below path) (inside_eq_nil hpart)).trans (below_nil path)
        rw [hnone] at h
        cases h
      exact ⟨text, _, space_mem_tree.mpr ⟨hpart, rfl⟩, ih.mpr h⟩

theorem nodup_symbolsIn_tree (text : String) (ms : List Mention) :
    (symbolsIn (tree text ms)).Nodup := by
  induction ms using Mention.induction generalizing text with
  | grouped ms ih =>
    apply nodup_symbolsIn (nodup_tree text ms)
    · intro part parent parent' inner inner' h h'
      exact (space_mem_tree.mp h).2.trans (space_mem_tree.mp h').2.symm
    · intro m hm
      cases m with
      | space part parent inner =>
        obtain ⟨hpart, he⟩ := space_mem_tree.mp hm
        rw [he]
        exact Member.nodup_symbols_space (ih part hpart _)
      | type t =>
        rw [Member.symbols]
        exact List.nodup_singleton _

end Mention

/-- The type that a member is. -/
def Member.type? : Member → Option NamedType
  | .type t => some t
  | .space _ _ _ => none

/-- The namespace that a member is. -/
def Member.space? : Member → Option Namespace
  | .space name parent members => some ⟨name, parent, members⟩
  | .type _ => none

theorem Member.type?_eq_some_iff {m : Member} {t : NamedType} :
    m.type? = some t ↔ m = .type t := by
  cases m <;> simp [type?]

theorem Member.space?_eq_some_iff {m : Member} {s : Namespace} :
    m.space? = some s ↔ m = s.toMember := by
  cases m <;> cases s <;> simp [space?, Namespace.toMember]

namespace Namespace

/-- All symbols of one kind below a namespace, each with the names of the namespaces around it. -/
def below {α : Type} (kind : Member → Option α) (n : Namespace) : List (List String × α) :=
  (symbolsIn n.members).filterMap fun e => (kind e.2).map fun symbol => (e.1, symbol)

/-- The types below a namespace. -/
def typesBelow (n : Namespace) : List (List String × NamedType) := n.below Member.type?

/-- The namespaces below a namespace. -/
def spacesBelow (n : Namespace) : List (List String × Namespace) := n.below Member.space?

section Below

variable {α : Type} {kind : Member → Option α} {back : α → Member} {n : Namespace}

theorem mem_below (h : ∀ m a, kind m = some a ↔ m = back a) {path : List String} {a : α} :
    (path, a) ∈ n.below kind ↔ (path, back a) ∈ symbolsIn n.members := by
  rw [below, List.mem_filterMap]
  constructor
  · intro ha
    obtain ⟨⟨path', m⟩, hm, he⟩ := ha
    obtain ⟨a', ha', he⟩ := Option.map_eq_some_iff.mp he
    obtain ⟨rfl, rfl⟩ := Prod.mk.inj he
    rwa [← (h m a').mp ha']
  · intro ha
    exact ⟨_, ha, by rw [(h _ a).mpr rfl]; rfl⟩

theorem nodup_below (h : ∀ m a, kind m = some a ↔ m = back a)
    (hn : (symbolsIn n.members).Nodup) : (n.below kind).Nodup := by
  apply hn.filterMap
  intro e e' found he he'
  obtain ⟨a, ha, rfl⟩ := Option.map_eq_some_iff.mp he
  obtain ⟨a', ha', hfound⟩ := Option.map_eq_some_iff.mp he'
  obtain ⟨hpath, rfl⟩ := Prod.mk.inj hfound
  exact Prod.ext hpath.symm (((h _ _).mp ha).trans ((h _ _).mp ha').symm)

end Below

/-- A namespace represents names if it is the global one, the types below it show exactly these
names and each one once, and the namespaces below it are those on the way to them: each path is there
once, namespaces side by side have distinct names, each has a type below it, and all symbols have the
path of the namespaces around them. -/
structure Represents (root : Namespace) (names : List String) : Prop where
  global : root.name = "" ∧ root.parent = ""
  shown_once : (root.typesBelow.map fun e => e.2.displayName).Nodup
  shown : ∀ text, text ∈ root.typesBelow.map (fun e => e.2.displayName) ↔
    ∃ name ∈ names, text = globalMark ++ shownName name
  path_once : (root.spacesBelow.map fun e => e.2.qualifiedName).Nodup
  paths : ∀ path, path ∈ root.spacesBelow.map (fun e => e.2.qualifiedName) ↔
    ∃ name ∈ names, ∃ front, front <+: segments (splitQualified name).1 ∧ front ≠ [] ∧
      path = dotted front
  siblings : (root.namespaceMembers.map (·.name)).Nodup ∧
    ∀ e ∈ root.spacesBelow, (e.2.namespaceMembers.map (·.name)).Nodup
  inhabited : ∀ e ∈ root.spacesBelow, e.2.typesBelow ≠ []
  space_placed : ∀ e ∈ root.spacesBelow, e.2.parent = dotted e.1
  type_placed : ∀ e ∈ root.typesBelow,
    e.2.namespacePath = dotted e.1 ∧ e.2.outerPath = "" ∧ e.2.nested = []

end Namespace

namespace Mention

/-- The global namespace that the mentions build. -/
def root (ms : List Mention) : Namespace := ⟨"", "", tree "" ms⟩

/-- The namespace that the mentions build at the end of a path. -/
def spaceAt (path : List String) (part : String) (ms : List Mention) : Namespace :=
  ⟨part, dotted path, tree (dotted (path ++ [part])) (below (path ++ [part]) ms)⟩

variable {ms : List Mention}

theorem legible_of_mem_spaces (h : ∀ m ∈ ms, Legible m.1) {path : List String} {part : String}
    (hpart : part ∈ spaces (below path ms)) : Legible (path ++ [part]) := by
  obtain ⟨parts, name, hm⟩ := mem_spaces.mp hpart
  exact (h _ (mem_below.mp hm)).front ⟨parts, by simp⟩

theorem type_mem_symbolsIn_tree {text : String} {path : List String} {t : NamedType} :
    (path, .type t) ∈ symbolsIn (tree text ms) ↔
      ∃ name, (path, name) ∈ ms ∧ t = type (path.foldl extendPath text) name := by
  rw [mem_symbolsIn_tree, type_mem_tree]
  simp only [mem_types, mem_below, List.append_nil]

theorem mem_typesBelow_root (h : ∀ m ∈ ms, Legible m.1) {path : List String} {t : NamedType} :
    (path, t) ∈ (root ms).typesBelow ↔ ∃ name, (path, name) ∈ ms ∧ t = type (dotted path) name := by
  have hplaced {name : String} (hm : (path, name) ∈ ms) :
      path.foldl extendPath "" = dotted path := foldl_extendPath [] (h _ hm)
  rw [Namespace.typesBelow, Namespace.mem_below fun _ _ => Member.type?_eq_some_iff, root,
    type_mem_symbolsIn_tree]
  exact exists_congr fun name => and_congr_right fun hm => by rw [hplaced hm]

theorem mem_spacesBelow_root (h : ∀ m ∈ ms, Legible m.1) {path : List String} {s : Namespace} :
    (path, s) ∈ (root ms).spacesBelow ↔
      ∃ part ∈ spaces (below path ms), s = spaceAt path part ms := by
  have hspace {part : String} (hpart : part ∈ spaces (below path ms)) :
      space (path.foldl extendPath "") (below path ms) part = (spaceAt path part ms).toMember := by
    have hlonger := legible_of_mem_spaces h hpart
    have hpath : Legible path := hlonger.front (List.prefix_append _ _)
    have hplaced : path.foldl extendPath "" = dotted path := foldl_extendPath [] hpath
    rw [space, hplaced, hpath.extendPath_dotted (hlonger.dotless part (by simp)), ← below_concat]
    rfl
  rw [Namespace.spacesBelow, Namespace.mem_below fun _ _ => Member.space?_eq_some_iff, root,
    mem_symbolsIn_tree, Namespace.toMember, space_mem_tree]
  constructor
  · intro hs
    obtain ⟨hpart, he⟩ := hs
    rw [hspace hpart] at he
    exact ⟨s.name, hpart, Option.some.inj (congrArg Member.space? he)⟩
  · intro hs
    obtain ⟨part, hpart, rfl⟩ := hs
    exact ⟨hpart, (hspace hpart).symm⟩

theorem typesBelow_ne_nil {n : Namespace} {text : String} (hn : n.members = tree text ms)
    (h : ms ≠ []) : n.typesBelow ≠ [] := by
  obtain ⟨m, hm⟩ := List.exists_mem_of_ne_nil ms h
  apply List.ne_nil_of_mem
  apply (Namespace.mem_below fun _ _ => Member.type?_eq_some_iff).mpr
  rw [hn]
  exact type_mem_symbolsIn_tree.mpr ⟨m.2, hm, rfl⟩

theorem map_name_namespaceMembers {n : Namespace} {text : String} (hn : n.members = tree text ms) :
    n.namespaceMembers.map (·.name) = spaces ms := by
  rw [Namespace.namespaceMembers, hn, tree_eq]
  simp [List.filterMap_append, List.filterMap_map, Function.comp_def, space]

/-- What a name mentions. -/
def ofName (name : String) : Mention :=
  (segments (splitQualified name).1, (splitQualified name).2)

/-- The mention can be read off the text that its type is shown as. -/
structure Plain (m : Mention) : Prop where
  legible : Legible m.1
  dotless : '.' ∉ m.2.toList
  named : m.2 ≠ ""

theorem plain_ofName {name : String} (ht : ¬ Typeless name) (hr : ¬ Rootless name) :
    (ofName name).Plain where
  legible := legible_space hr
  dotless := dotless_splitQualified name
  named he := ht (isEmpty_splitQualified_iff.mp (String.isEmpty_iff.mpr he))

theorem Plain.displayName_eq {m : Mention} (h : m.Plain) :
    (type (dotted m.1) m.2).displayName = globalMark ++ dotted (m.1 ++ [m.2]) :=
  h.legible.displayName_eq h.dotless h.named []

theorem Plain.eq_of_displayName {m m' : Mention} (h : m.Plain) (h' : m'.Plain)
    (he : (type (dotted m.1) m.2).displayName = (type (dotted m'.1) m'.2).displayName) :
    m = m' := by
  rw [h.displayName_eq, h'.displayName_eq] at he
  have hdotted : dotted (m.1 ++ [m.2]) = dotted (m'.1 ++ [m'.2]) := by
    have hl := congrArg String.toList he
    rw [toList_marked, toList_marked] at hl
    exact String.toList_inj.mp (List.append_cancel_left hl)
  have hpath := (h.legible.concat h.dotless h.named).dotted_inj
    (h'.legible.concat h'.dotless h'.named) hdotted
  obtain ⟨hspace, hname⟩ := List.append_inj' hpath rfl
  exact Prod.ext hspace (List.cons.inj hname).1

theorem qualifiedName_spaceAt {path : List String} {part : String} (h : Legible (path ++ [part])) :
    (spaceAt path part ms).qualifiedName = dotted (path ++ [part]) :=
  (h.front (List.prefix_append _ _)).extendPath_dotted (h.dotless part (by simp))

theorem nodup_shown (h : ∀ m ∈ ms, m.Plain) :
    ((root ms).typesBelow.map fun e => e.2.displayName).Nodup := by
  have hlegible (m : Mention) (hm : m ∈ ms) : Legible m.1 := (h m hm).legible
  have hnodup : (root ms).typesBelow.Nodup :=
    Namespace.nodup_below (fun _ _ => Member.type?_eq_some_iff) (nodup_symbolsIn_tree "" ms)
  apply hnodup.map_on
  rintro ⟨path, t⟩ ht ⟨path', t'⟩ ht' he
  obtain ⟨name, hm, rfl⟩ := (mem_typesBelow_root hlegible).mp ht
  obtain ⟨name', hm', rfl⟩ := (mem_typesBelow_root hlegible).mp ht'
  obtain ⟨rfl, rfl⟩ := Prod.mk.inj ((h _ hm).eq_of_displayName (h _ hm') he)
  rfl

theorem mem_shown (h : ∀ m ∈ ms, m.Plain) {text : String} :
    text ∈ (root ms).typesBelow.map (fun e => e.2.displayName) ↔
      ∃ m ∈ ms, text = globalMark ++ dotted (m.1 ++ [m.2]) := by
  have hlegible (m : Mention) (hm : m ∈ ms) : Legible m.1 := (h m hm).legible
  rw [List.mem_map]
  constructor
  · intro ht
    obtain ⟨⟨path, t⟩, ht, rfl⟩ := ht
    obtain ⟨name, hm, rfl⟩ := (mem_typesBelow_root hlegible).mp ht
    exact ⟨_, hm, (h _ hm).displayName_eq⟩
  · intro ht
    obtain ⟨m, hm, rfl⟩ := ht
    exact ⟨_, (mem_typesBelow_root hlegible).mpr ⟨m.2, hm, rfl⟩, (h m hm).displayName_eq⟩

theorem nodup_paths (h : ∀ m ∈ ms, Legible m.1) :
    ((root ms).spacesBelow.map fun e => e.2.qualifiedName).Nodup := by
  have hnodup : (root ms).spacesBelow.Nodup :=
    Namespace.nodup_below (fun _ _ => Member.space?_eq_some_iff) (nodup_symbolsIn_tree "" ms)
  apply hnodup.map_on
  rintro ⟨path, s⟩ hs ⟨path', s'⟩ hs' he
  obtain ⟨part, hpart, rfl⟩ := (mem_spacesBelow_root h).mp hs
  obtain ⟨part', hpart', rfl⟩ := (mem_spacesBelow_root h).mp hs'
  have hpath := legible_of_mem_spaces h hpart
  have hpath' := legible_of_mem_spaces h hpart'
  rw [qualifiedName_spaceAt hpath, qualifiedName_spaceAt hpath'] at he
  obtain ⟨rfl, hlast⟩ := List.append_inj' (hpath.dotted_inj hpath' he) rfl
  obtain rfl := (List.cons.inj hlast).1
  rfl

theorem mem_paths (h : ∀ m ∈ ms, Legible m.1) {text : String} :
    text ∈ (root ms).spacesBelow.map (fun e => e.2.qualifiedName) ↔
      ∃ m ∈ ms, ∃ front, front <+: m.1 ∧ front ≠ [] ∧ text = dotted front := by
  rw [List.mem_map]
  constructor
  · intro hs
    obtain ⟨⟨path, s⟩, hs, rfl⟩ := hs
    obtain ⟨part, hpart, rfl⟩ := (mem_spacesBelow_root h).mp hs
    obtain ⟨parts, name, hm⟩ := mem_spaces.mp hpart
    refine ⟨_, mem_below.mp hm, path ++ [part], ⟨parts, by simp⟩, by simp, ?_⟩
    exact qualifiedName_spaceAt (legible_of_mem_spaces h hpart)
  · intro hs
    obtain ⟨m, hm, front, ⟨rest, hfront⟩, hne, rfl⟩ := hs
    obtain ⟨path, part, rfl⟩ := (List.eq_nil_or_concat' front).resolve_left hne
    have hpart : part ∈ spaces (below path ms) := by
      apply mem_spaces.mpr
      have hm' : (path ++ part :: rest, m.2) ∈ ms := by
        rw [List.append_cons, hfront]
        exact hm
      exact ⟨rest, m.2, mem_below.mpr hm'⟩
    exact ⟨_, (mem_spacesBelow_root h).mpr ⟨part, hpart, rfl⟩,
      qualifiedName_spaceAt (legible_of_mem_spaces h hpart)⟩

/-- The tree of what the names mention represents them. -/
theorem root_represents {names : List String} (ht : ∀ name ∈ names, ¬ Typeless name)
    (hr : ∀ name ∈ names, ¬ Rootless name) : (root (names.map ofName)).Represents names := by
  have hplain : ∀ m ∈ names.map ofName, m.Plain :=
    List.forall_mem_map.mpr fun name hname => plain_ofName (ht name hname) (hr name hname)
  have hlegible (m : Mention) (hm : m ∈ names.map ofName) : Legible m.1 := (hplain m hm).legible
  constructor
  case global => exact ⟨rfl, rfl⟩
  case shown_once => exact nodup_shown hplain
  case shown =>
    intro text
    rw [mem_shown hplain]
    constructor
    · intro h
      obtain ⟨m, hm, rfl⟩ := h
      obtain ⟨name, hname, rfl⟩ := List.mem_map.mp hm
      exact ⟨name, hname, congrArg (globalMark ++ ·) (dotted_splitQualified (hr name hname))⟩
    · intro h
      obtain ⟨name, hname, rfl⟩ := h
      exact ⟨_, List.mem_map_of_mem hname,
        congrArg (globalMark ++ ·) (dotted_splitQualified (hr name hname)).symm⟩
  case path_once => exact nodup_paths hlegible
  case paths =>
    intro path
    rw [mem_paths hlegible]
    simp [ofName]
  case siblings =>
    constructor
    · rw [map_name_namespaceMembers rfl]
      exact nodup_spaces _
    · rintro ⟨path, s⟩ hs
      obtain ⟨part, -, rfl⟩ := (mem_spacesBelow_root hlegible).mp hs
      rw [map_name_namespaceMembers rfl]
      exact nodup_spaces _
  case inhabited =>
    rintro ⟨path, s⟩ hs
    obtain ⟨part, hpart, rfl⟩ := (mem_spacesBelow_root hlegible).mp hs
    obtain ⟨parts, name, hm⟩ := mem_spaces.mp hpart
    apply typesBelow_ne_nil rfl
    rw [below_concat]
    exact List.ne_nil_of_mem ((mem_inside (m := (parts, name))).mpr hm)
  case space_placed =>
    rintro ⟨path, s⟩ hs
    obtain ⟨part, -, rfl⟩ := (mem_spacesBelow_root hlegible).mp hs
    rfl
  case type_placed =>
    rintro ⟨path, t⟩ ht
    obtain ⟨name, -, rfl⟩ := (mem_typesBelow_root hlegible).mp ht
    exact ⟨rfl, rfl, rfl⟩

end Mention

end TierHost
