import TierHost.Proofs.Symbols.Exports
import TierHost.Proofs.Text.Apart
import TierHost.Proofs.Text.Pieces
import TierHost.Symbols.Builder

/-!
Dotted paths and dotted names. Segments without points can be read off their dotted path unless the
first one is empty, and a dotted name is the path of its namespace that goes on with its simple name.
-/

namespace TierHost

theorem toList_marked (name : String) :
    (globalMark ++ name).toList = globalMark.toList ++ name.toList := String.toList_append

theorem toList_qualified (space type : String) :
    (space ++ "." ++ type).toList = space.toList ++ '.' :: type.toList := by
  rw [String.toList_append, String.toList_append, List.append_assoc]
  rfl

/-- The text of a path. -/
def dotted (path : List String) : String := ".".intercalate path

/-- The segments are those that the dotted path is cut into. The global path has none, so that no
other path may start with an empty one. -/
structure Legible (path : List String) : Prop where
  dotless : ∀ part ∈ path, '.' ∉ part.toList
  started : path.head? ≠ some ""

theorem Legible.nil : Legible [] := ⟨fun _ h => absurd h List.not_mem_nil, nofun⟩

theorem Legible.front {path path' : List String} (h : Legible path') (hpath : path <+: path') :
    Legible path := by
  constructor
  · intro part hpart
    exact h.dotless part (hpath.subset hpart)
  · intro hhead
    apply h.started
    obtain ⟨rest, rfl⟩ := hpath
    rw [List.head?_append, hhead]
    rfl

theorem Legible.concat {path : List String} {part : String} (h : Legible path)
    (hdotless : '.' ∉ part.toList) (hpart : part ≠ "") : Legible (path ++ [part]) := by
  constructor
  · intro other hother
    rcases List.mem_append.mp hother with hother | hother
    · exact h.dotless other hother
    · rwa [List.mem_singleton.mp hother]
  · cases path with
    | nil => exact fun hhead => hpart (Option.some.inj hhead)
    | cons first rest => exact h.started

theorem toList_dotted (path : List String) :
    (dotted path).toList = ['.'].intercalate (path.map String.toList) := String.toList_intercalate

theorem pieces_dotted {path : List String} (hdotless : ∀ part ∈ path, '.' ∉ part.toList)
    (hne : path ≠ []) : Text.pieces '.' (dotted path).toList = path.map String.toList := by
  rw [toList_dotted]
  apply Text.pieces_intercalate
  · intro word hword
    obtain ⟨part, hpart, rfl⟩ := List.mem_map.mp hword
    exact hdotless part hpart
  · exact fun h => hne (List.map_eq_nil_iff.mp h)

theorem Legible.dotted_ne_empty {path : List String} (h : Legible path) (hne : path ≠ []) :
    dotted path ≠ "" := by
  intro hempty
  have hpieces := pieces_dotted h.dotless hne
  -- the empty text has one piece, which would be the first segment
  rw [hempty] at hpieces
  cases path with
  | nil => exact hne rfl
  | cons first rest =>
    have hfirst : [] = first.toList := (List.cons.inj hpieces).1
    exact h.started (congrArg some (String.toList_inj.mp hfirst.symm))

/-- The dotted path tells its segments. -/
theorem Legible.segments_dotted {path : List String} (h : Legible path) :
    segments (dotted path) = path := by
  by_cases hne : path = []
  · rw [hne]
    rfl
  · rw [segments, if_neg (by simpa using h.dotted_ne_empty hne), pieces_dotted h.dotless hne,
      List.map_map]
    simp [Function.comp_def]

theorem Legible.dotted_inj {path path' : List String} (h : Legible path) (h' : Legible path')
    (he : dotted path = dotted path') : path = path' := by
  rw [← h.segments_dotted, he, h'.segments_dotted]

theorem dotted_segments (path : String) : dotted (segments path) = path := by
  apply String.toList_inj.mp
  rw [toList_dotted, segments]
  by_cases hempty : path.isEmpty = true
  · rw [if_pos hempty, String.isEmpty_iff.mp hempty]
    rfl
  · rw [if_neg hempty, List.map_map]
    simp [Function.comp_def, Text.intercalate_pieces]

/-- A path goes on with a segment at the end. -/
theorem Legible.extendPath_dotted {path : List String} {part : String} (h : Legible path)
    (hpart : '.' ∉ part.toList) : extendPath (dotted path) part = dotted (path ++ [part]) := by
  apply String.toList_inj.mp
  by_cases hne : path = []
  · rw [hne]
    simp [extendPath, dotted]
  · -- both sides are cut into the same pieces
    have hpieces : Text.pieces '.' (dotted path ++ "." ++ part).toList =
        (path ++ [part]).map String.toList := by
      rw [toList_qualified, Text.pieces_append_cons, pieces_dotted h.dotless hne,
        Text.pieces_of_notMem hpart, List.map_append, List.map_singleton]
    rw [extendPath, if_neg (by simpa using h.dotted_ne_empty hne), toList_dotted, ← hpieces,
      Text.intercalate_pieces]

theorem foldl_extendPath (front : List String) {path : List String}
    (h : Legible (front ++ path)) :
    path.foldl extendPath (dotted front) = dotted (front ++ path) := by
  induction path generalizing front with
  | nil => rw [List.foldl_nil, List.append_nil]
  | cons part path ih =>
    have hfront : Legible front := h.front (List.prefix_append _ _)
    have hnext : Legible (front ++ [part] ++ path) := by rwa [List.append_assoc]
    calc
      path.foldl extendPath (extendPath (dotted front) part)
      _ = path.foldl extendPath (dotted (front ++ [part])) := by
        rw [hfront.extendPath_dotted (h.dotless part (by simp))]
      _ = dotted (front ++ [part] ++ path) := ih _ hnext
      _ = dotted (front ++ part :: path) := by rw [List.append_assoc, List.singleton_append]

theorem dotless_of_mem_segments {path part : String} (h : part ∈ segments path) :
    '.' ∉ part.toList := by
  rw [segments] at h
  by_cases hempty : path.isEmpty = true
  · rw [if_pos hempty] at h
    exact absurd h List.not_mem_nil
  · rw [if_neg hempty] at h
    obtain ⟨piece, hpiece, rfl⟩ := List.mem_map.mp h
    rw [String.toList_ofList]
    exact Text.notMem_of_mem_pieces hpiece

/-- The first segment is empty if the path starts with a point. -/
theorem head?_segments_eq_empty_iff {path : String} :
    (segments path).head? = some "" ↔ ∃ rest, path.toList = '.' :: rest := by
  constructor
  · intro h
    have hpath := dotted_segments path
    cases hparts : segments path with
    | nil =>
      rw [hparts] at h
      cases h
    | cons first rest =>
      rw [hparts] at h hpath
      obtain rfl : first = "" := Option.some.inj h
      cases rest with
      | nil =>
        -- the path would be empty, and the empty path has no segments
        rw [← hpath] at hparts
        cases hparts
      | cons second rest =>
        rw [← hpath, toList_dotted, List.map_cons, List.intercalate_cons_of_ne_nil (by simp)]
        exact ⟨_, rfl⟩
  · intro h
    obtain ⟨rest, hrest⟩ := h
    have hempty : ¬ path.isEmpty = true := by
      intro he
      rw [String.isEmpty_iff.mp he] at hrest
      cases hrest
    rw [segments, if_neg hempty, hrest, Text.pieces, if_pos rfl]
    rfl

theorem legible_segments {path : String} (h : ¬ ∃ rest, path.toList = '.' :: rest) :
    Legible (segments path) where
  dotless _ hpart := dotless_of_mem_segments hpart
  started hhead := h (head?_segments_eq_empty_iff.mp hhead)

/-- A type below a path shows the path going on with its name. -/
theorem Legible.displayName_eq {path : List String} {name : String} (h : Legible path)
    (hdotless : '.' ∉ name.toList) (hname : name ≠ "") (nested : List NamedType) :
    (⟨name, dotted path, "", nested⟩ : NamedType).displayName =
      globalMark ++ dotted (path ++ [name]) := by
  rw [← h.extendPath_dotted hdotless, extendPath]
  by_cases hne : path = []
  · rw [hne]
    simp [NamedType.displayName, NamedType.qualifiedName, dotted, hname]
  · have hpath : dotted path ≠ "" := h.dotted_ne_empty hne
    rw [if_neg (by simpa using hpath)]
    exact NamedType.displayName_eq hpath rfl hname

/-- The text behind one leading mark of the global namespace. -/
def bareName (name : String) : List Char := Text.dropLeading globalMark.toList name.toList

/-- No simple name stands behind the last point. -/
def Typeless (name : String) : Prop := bareName name = [] ∨ ['.'] <:+ bareName name

/-- The namespace in front of the last point starts with a point itself. -/
def Rootless (name : String) : Prop :=
  ∃ space simple, bareName name = '.' :: space ++ '.' :: simple ∧ '.' ∉ simple

/-- The text that a name is shown as: a point in front goes if it is the only one. -/
def shownName (name : String) : String :=
  String.ofList <|
    match bareName name with
    | '.' :: rest => if '.' ∈ rest then '.' :: rest else rest
    | text => text

theorem splitQualified_cases (name : String) :
    ('.' ∉ bareName name ∧ splitQualified name = ("", String.ofList (bareName name))) ∨
      ∃ space simple, bareName name = space ++ '.' :: simple ∧ '.' ∉ simple ∧
        splitQualified name = (String.ofList space, String.ofList simple) := by
  unfold splitQualified bareName
  dsimp only
  cases hparts : Text.splitAtLast '.' (Text.dropLeading globalMark.toList name.toList) with
  | none => exact Or.inl ⟨Text.splitAtLast_eq_none_iff.mp hparts, rfl⟩
  | some parts =>
    obtain ⟨hbare, hsimple⟩ := Text.splitAtLast_eq_some_iff.mp hparts
    exact Or.inr ⟨parts.1, parts.2, hbare, hsimple, rfl⟩

theorem dotless_splitQualified (name : String) : '.' ∉ (splitQualified name).2.toList := by
  rcases splitQualified_cases name with ⟨hbare, hsplit⟩ | ⟨space, simple, hbare, hsimple, hsplit⟩
  · rwa [hsplit, String.toList_ofList]
  · rwa [hsplit, String.toList_ofList]

theorem isEmpty_splitQualified_iff {name : String} :
    (splitQualified name).2.isEmpty = true ↔ Typeless name := by
  rw [String.isEmpty_iff]
  rcases splitQualified_cases name with ⟨hbare, hsplit⟩ | ⟨space, simple, hbare, hsimple, hsplit⟩
  · have hend : ¬ ['.'] <:+ bareName name := fun h => hbare (h.subset List.mem_cons_self)
    rw [hsplit, Typeless, or_iff_left hend]
    simp
  · have hne : space ++ '.' :: simple ≠ [] := List.append_ne_nil_of_right_ne_nil space (by simp)
    rw [hsplit, Typeless, hbare, or_iff_right hne]
    constructor
    · intro h
      obtain rfl : simple = [] := by simpa using h
      exact List.suffix_append space ['.']
    · intro h
      have hend : ['.'] <:+ (space ++ ['.']) ++ simple := by rwa [List.append_assoc]
      -- the last point would stand in the simple name
      by_cases hs : simple = []
      · rw [hs]
      · exact absurd (Text.getLast_mem_right hend (by simp) hs) hsimple

instance (name : String) : Decidable (Typeless name) :=
  decidable_of_iff _ isEmpty_splitQualified_iff

theorem head?_space_eq_empty_iff {name : String} :
    (segments (splitQualified name).1).head? = some "" ↔ Rootless name := by
  rw [head?_segments_eq_empty_iff]
  rcases splitQualified_cases name with ⟨hbare, hsplit⟩ | ⟨space, simple, hbare, hsimple, hsplit⟩
  · rw [hsplit]
    constructor
    · intro h
      obtain ⟨rest, hrest⟩ := h
      cases hrest
    · intro h
      obtain ⟨space, simple, hspace, -⟩ := h
      rw [hspace] at hbare
      exact absurd List.mem_cons_self hbare
  · rw [hsplit, String.toList_ofList]
    constructor
    · intro h
      obtain ⟨rest, rfl⟩ := h
      exact ⟨rest, simple, hbare, hsimple⟩
    · intro h
      obtain ⟨space', simple', hspace, hsimple'⟩ := h
      -- the last point is in one place only
      have hlast := Text.splitAtLast_append hsimple space
      rw [← hbare, hspace, Text.splitAtLast_append hsimple'] at hlast
      exact ⟨space', (Prod.mk.inj (Option.some.inj hlast)).1.symm⟩

instance (name : String) : Decidable (Rootless name) := decidable_of_iff _ head?_space_eq_empty_iff

theorem legible_space {name : String} (h : ¬ Rootless name) :
    Legible (segments (splitQualified name).1) :=
  legible_segments fun hpoint =>
    h (head?_space_eq_empty_iff.mp (head?_segments_eq_empty_iff.mpr hpoint))

/-- A name is shown as the path of its namespace that goes on with its simple name. -/
theorem dotted_splitQualified {name : String} (h : ¬ Rootless name) :
    dotted (segments (splitQualified name).1 ++ [(splitQualified name).2]) = shownName name := by
  rw [← (legible_space h).extendPath_dotted (dotless_splitQualified name), dotted_segments]
  apply String.toList_inj.mp
  rcases splitQualified_cases name with ⟨hbare, hsplit⟩ | ⟨space, simple, hbare, hsimple, hsplit⟩
  · rw [hsplit, shownName]
    cases hb : bareName name with
    | nil => rfl
    | cons c rest =>
      have hc : c ≠ '.' := fun hc => hbare (hb ▸ hc ▸ List.mem_cons_self)
      simp [extendPath, hc]
  · rw [hsplit, shownName, hbare]
    cases space with
    | nil => simp [extendPath, hsimple]
    | cons c space =>
      have hc : c ≠ '.' := by
        rintro rfl
        exact h ⟨space, simple, hbare, hsimple⟩
      simp [extendPath, hc]

end TierHost
