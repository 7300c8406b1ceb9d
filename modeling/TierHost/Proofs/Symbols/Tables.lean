import TierHost.Proofs.Listing
import TierHost.Proofs.Mapping
import TierHost.Proofs.Symbols.Dotted
import TierHost.Proofs.Symbols.Mentions

/-!
Path tables against trees. The keys are dotted, so the entries of two namespaces stay apart as long as
the segments can be read off the keys. Then the tables hold the groups of the mentions under every
path, and reading them gives the tree that the mentions build. A path that starts with an empty segment
has the key of the global namespace, and reading such tables never ends.
-/

namespace TierHost

namespace PathTable

theorem mem_addNew {name other : String} {names : List String} :
    name ∈ addNew other names ↔ name ∈ names ∨ name = other := by
  by_cases h : other ∈ names
  · rw [addNew, if_pos (List.contains_iff_mem.mpr h)]
    exact (or_iff_left_of_imp fun he => he ▸ h).symm
  · rw [addNew, if_neg (fun hc => h (List.contains_iff_mem.mp hc)), List.mem_append,
      List.mem_singleton]

theorem listed_note (path key name : String) (table : Listing String (List String)) :
    listed (note path name table) key =
      if path = key then addNew name (listed table key) else listed table key := by
  rw [listed, note, Listing.get?_put]
  by_cases h : path = key
  · rw [if_pos h, if_pos h, h]
    rfl
  · rw [if_neg h, if_neg h]
    rfl

/-- A path that is put in has no names, as before. -/
theorem listed_ensure (path key : String) (table : Listing String (List String)) :
    listed (ensure path table) key = listed table key := by
  rw [ensure]
  cases hpath : table.get? path with
  | some names => rfl
  | none =>
    rw [listed, Listing.get?_put]
    by_cases h : path = key
    · rw [if_pos h, listed, ← h, hpath]
      rfl
    · rw [if_neg h, listed]

theorem listed_spaces_enter (t : PathTable) (path part key : String) :
    listed (t.enter path part).spaces key =
      if path = key then addNew part (listed t.spaces key) else listed t.spaces key := by
  rw [enter, listed_ensure, listed_note]

theorem listed_types_enter (t : PathTable) (path part key : String) :
    listed (t.enter path part).types key = listed t.types key := listed_ensure _ _ _

section Complete

/-! Every path that is looked up was put in before, so that no names are made up for it. -/

variable {t : PathTable} {path key : String}

/-- Both tables have a place for the path. -/
def Has (t : PathTable) (path : String) : Prop := path ∈ t.spaces.keys ∧ path ∈ t.types.keys

/-- The tables have a place for the global namespace and for every inner namespace that is listed. -/
structure Complete (t : PathTable) : Prop where
  global : t.Has ""
  inner : ∀ path part, part ∈ listed t.spaces path → t.Has (extendPath path part)

theorem mem_keys_put {names : List String} {table : Listing String (List String)} :
    key ∈ Listing.keys (table.put path names) ↔ key = path ∨ key ∈ table.keys := by
  rw [Listing.keys_put]
  by_cases h : path ∈ table.keys
  · rw [if_pos h]
    exact (or_iff_right_of_imp fun he => he ▸ h).symm
  · rw [if_neg h, List.mem_append, List.mem_singleton, or_comm]

theorem mem_keys_ensure {table : Listing String (List String)} :
    key ∈ (ensure path table).keys ↔ key = path ∨ key ∈ table.keys := by
  rw [ensure]
  cases hpath : table.get? path with
  | some names =>
    have hmem : path ∈ table.keys := List.mem_map_of_mem (Listing.mem_of_get? hpath)
    exact (or_iff_right_of_imp fun he => he ▸ hmem).symm
  | none => exact mem_keys_put

theorem Has.enter (h : t.Has key) (path part : String) : (t.enter path part).Has key := by
  constructor
  · exact mem_keys_ensure.mpr (Or.inr (mem_keys_put.mpr (Or.inr h.1)))
  · exact mem_keys_ensure.mpr (Or.inr h.2)

theorem has_enter (t : PathTable) (path part : String) :
    (t.enter path part).Has (extendPath path part) :=
  ⟨mem_keys_ensure.mpr (Or.inl rfl), mem_keys_ensure.mpr (Or.inl rfl)⟩

theorem Complete.enter (h : t.Complete) (path part : String) : (t.enter path part).Complete where
  global := h.global.enter path part
  inner key name hname := by
    rw [listed_spaces_enter] at hname
    by_cases hkey : path = key
    · rw [if_pos hkey] at hname
      -- the new name is the one that gets its place
      rcases mem_addNew.mp hname with hname | rfl
      · exact (h.inner key name hname).enter path part
      · exact hkey ▸ has_enter t path name
    · rw [if_neg hkey] at hname
      exact (h.inner key name hname).enter path part

/-- Tables that are complete stay so when a type is added below a path that they have, and they have
the paths of all namespaces on the way. -/
theorem Complete.add (h : t.Complete) (hpath : t.Has path) (parts : List String) (name : String) :
    (t.add path parts name).Complete := by
  induction parts generalizing t path with
  | nil =>
    have hkeys {key : String} (hkey : t.Has key) : (t.add path [] name).Has key :=
      ⟨hkey.1, mem_keys_put.mpr (Or.inr hkey.2)⟩
    exact ⟨hkeys h.global, fun key part hpart => hkeys (h.inner key part hpart)⟩
  | cons part parts ih => exact ih (h.enter path part) (has_enter t path part)

end Complete

/-- The tables have the same names under a path. -/
def AgreeAt (path : String) (t t' : PathTable) : Prop :=
  listed t'.spaces path = listed t.spaces path ∧ listed t'.types path = listed t.types path

theorem AgreeAt.trans {path : String} {t t' t'' : PathTable} (h : AgreeAt path t t')
    (h' : AgreeAt path t' t'') : AgreeAt path t t'' := ⟨h'.1.trans h.1, h'.2.trans h.2⟩

theorem agreeAt_enter {t : PathTable} {path part key : String} (h : path ≠ key) :
    AgreeAt key t (t.enter path part) := by
  constructor
  · rw [listed_spaces_enter, if_neg h]
  · exact listed_types_enter t path part key

/-- A type that is added below one path leaves what is not below that path alone. -/
theorem agreeAt_add {path : List String} {parts : List String} {key : List String}
    (hpath : Legible (path ++ parts)) (hkey : Legible key) (h : ¬ path <+: key) (t : PathTable)
    (name : String) : AgreeAt (dotted key) t (t.add (dotted path) parts name) := by
  induction parts generalizing path t with
  | nil =>
    have hne : dotted path ≠ dotted key := by
      intro he
      rw [List.append_nil] at hpath
      exact h (hpath.dotted_inj hkey he ▸ List.prefix_refl path)
    constructor
    · rfl
    · rw [add, listed_note, if_neg hne]
  | cons part parts ih =>
    have hfront : Legible path := hpath.front (List.prefix_append _ _)
    have hpart : '.' ∉ part.toList := hpath.dotless part (by simp)
    have hne : dotted path ≠ dotted key := by
      intro he
      exact h (hfront.dotted_inj hkey he ▸ List.prefix_refl path)
    rw [add, hfront.extendPath_dotted hpart]
    apply (agreeAt_enter hne).trans
    apply ih
    · rwa [List.append_assoc]
    · exact fun hlong => h ((List.prefix_append path [part]).trans hlong)

/-- The tables hold the groups of the mentions under every path that starts with this one. -/
def Holds (t : PathTable) (path : List String) (ms : List Mention) : Prop :=
  ∀ rest, Legible (path ++ rest) →
    listed t.spaces (dotted (path ++ rest)) = Mention.spaces (Mention.below rest ms) ∧
      listed t.types (dotted (path ++ rest)) = Mention.types (Mention.below rest ms)

theorem dotted_ne_longer {path rest : List String} {part : String}
    (h : Legible (path ++ part :: rest)) : dotted path ≠ dotted (path ++ part :: rest) := by
  intro he
  have hfront : Legible path := h.front (List.prefix_append _ _)
  have hnil := List.self_eq_append_right.mp (hfront.dotted_inj h he)
  cases hnil

/-- Entering an inner namespace leaves what is below it as it was. -/
theorem Holds.enter {t : PathTable} {path : List String} {ms : List Mention} (h : t.Holds path ms)
    (part : String) : (t.enter (dotted path) part).Holds (path ++ [part]) (Mention.inside part ms) := by
  intro rest hrest
  rw [List.append_assoc] at hrest ⊢
  have hagree : AgreeAt (dotted (path ++ part :: rest)) t (t.enter (dotted path) part) :=
    agreeAt_enter (dotted_ne_longer hrest)
  obtain ⟨hspaces, htypes⟩ := h (part :: rest) hrest
  exact ⟨hagree.1.trans hspaces, hagree.2.trans htypes⟩

theorem Holds.note_type {t : PathTable} {path : List String} {ms : List Mention}
    (h : t.Holds path ms) (name : String) :
    (t.add (dotted path) [] name).Holds path (ms ++ [([], name)]) := by
  intro rest hrest
  obtain ⟨hspaces, htypes⟩ := h rest hrest
  rw [add, listed_note]
  cases rest with
  | nil =>
    rw [List.append_nil] at hspaces htypes ⊢
    rw [if_pos rfl, hspaces, htypes]
    exact ⟨(Mention.spaces_concat_nil ms name).symm, (Mention.types_concat_nil ms name).symm⟩
  | cons first rest =>
    have hbelow : Mention.below (first :: rest) (ms ++ [([], name)]) =
        Mention.below (first :: rest) ms :=
      congrArg (Mention.below rest) (Mention.inside_concat_nil ms first name)
    rw [if_neg (dotted_ne_longer hrest), hbelow]
    exact ⟨hspaces, htypes⟩

/-- Tables that hold the groups of some mentions hold those of one more when it is added. -/
theorem Holds.add {t : PathTable} {path parts : List String} {ms : List Mention}
    (h : t.Holds path ms) (hparts : Legible (path ++ parts)) (name : String) :
    (t.add (dotted path) parts name).Holds path (ms ++ [(parts, name)]) := by
  induction parts generalizing t path ms with
  | nil => exact h.note_type name
  | cons part parts ih =>
    have hfront : Legible path := hparts.front (List.prefix_append _ _)
    have hpart : '.' ∉ part.toList := hparts.dotless part (by simp)
    have hparts' : Legible (path ++ [part] ++ parts) := by rwa [List.append_assoc]
    rw [PathTable.add, hfront.extendPath_dotted hpart]
    -- three kinds of paths: this one, those through the new segment, and all others
    intro rest hrest
    have hother (hkey : ¬ path ++ [part] <+: path ++ rest) :=
      agreeAt_add hparts' hrest hkey (t.enter (dotted path) part) name
    cases rest with
    | nil =>
      obtain ⟨hspaces, htypes⟩ := h [] hrest
      obtain ⟨hspaces', htypes'⟩ := hother fun hlong => by simpa using hlong.length_le
      rw [List.append_nil] at hspaces htypes hspaces' htypes' ⊢
      rw [hspaces', htypes', listed_spaces_enter, listed_types_enter, if_pos rfl, hspaces, htypes]
      exact ⟨(Mention.spaces_concat_cons ms part name parts).symm,
        (Mention.types_concat_cons ms part name parts).symm⟩
    | cons first rest =>
      by_cases hfirst : part = first
      · subst hfirst
        have hinside := ih (h.enter part) hparts' rest (by rwa [List.append_assoc])
        rw [List.append_assoc, ← Mention.inside_concat_self] at hinside
        exact hinside
      · have hkey : ¬ path ++ [part] <+: path ++ first :: rest := by
          rw [List.prefix_append_right_inj, List.prefix_cons_iff]
          simp [hfirst]
        have hbelow : Mention.below (first :: rest) (ms ++ [(part :: parts, name)]) =
            Mention.below (first :: rest) ms :=
          congrArg (Mention.below rest) (Mention.inside_concat_of_ne ms part name parts hfirst)
        obtain ⟨hspaces, htypes⟩ := h (first :: rest) hrest
        obtain ⟨hspaces', htypes'⟩ :=
          (agreeAt_enter (dotted_ne_longer hrest)).trans (hother hkey)
        rw [hbelow]
        exact ⟨hspaces'.trans hspaces, htypes'.trans htypes⟩

/-- The tables of the mentions. -/
def ofMentions (ms : List Mention) : PathTable :=
  ms.foldl (fun t m => t.add "" m.1 m.2) start

theorem ofMentions_concat (ms : List Mention) (m : Mention) :
    ofMentions (ms ++ [m]) = (ofMentions ms).add "" m.1 m.2 := by
  rw [ofMentions, List.foldl_append]
  rfl

theorem listed_start (path : String) : listed start.spaces path = [] ∧ listed start.types path = [] := by
  have h : listed [("", [])] path = [] := by
    rw [listed, Listing.get?_cons]
    by_cases hpath : "" = path
    · rw [if_pos hpath]
      rfl
    · rw [if_neg hpath]
      rfl
  exact ⟨h, h⟩

theorem complete_ofMentions (ms : List Mention) : (ofMentions ms).Complete := by
  induction ms using List.reverseRecOn with
  | nil =>
    have hstart : start.Has "" := ⟨List.mem_cons_self, List.mem_cons_self⟩
    refine ⟨hstart, fun path part hpart => ?_⟩
    have hnone : part ∈ listed start.spaces path := hpart
    rw [(listed_start path).1] at hnone
    exact absurd hnone List.not_mem_nil
  | append_singleton ms m ih =>
    rw [ofMentions_concat]
    exact ih.add ih.global m.1 m.2

/-- The tables of mentions with legible paths hold their groups. -/
theorem holds_ofMentions {ms : List Mention} (h : ∀ m ∈ ms, Legible m.1) :
    (ofMentions ms).Holds [] ms := by
  induction ms using List.reverseRecOn with
  | nil =>
    intro rest hrest
    rw [Mention.below_nil]
    exact listed_start _
  | append_singleton ms m ih =>
    rw [ofMentions_concat]
    have hm : Legible ([] ++ m.1) := h m (List.mem_append_right ms List.mem_cons_self)
    exact (ih fun m' hm' => h m' (List.mem_append_left [m] hm')).add hm m.2

/-- A namespace is read as its tree when its inner ones are. -/
theorem Holds.freeze_succ {t : PathTable} {ms : List Mention} (h : t.Holds [] ms)
    {path : List String} (hpath : Legible path) {depth : Nat}
    (hinner : ∀ part ∈ Mention.spaces (Mention.below path ms),
      t.freeze depth (extendPath (dotted path) part) part (dotted path) =
        some ⟨part, dotted path, Mention.tree (extendPath (dotted path) part)
          (Mention.inside part (Mention.below path ms))⟩)
    (name parent : String) :
    t.freeze (depth + 1) (dotted path) name parent =
      some ⟨name, parent, Mention.tree (dotted path) (Mention.below path ms)⟩ := by
  obtain ⟨hspaces, htypes⟩ := h path hpath
  rw [List.nil_append] at hspaces htypes
  rw [freeze, hspaces, htypes, mapM_eq_some hinner, Mention.tree_eq]
  simp [Function.comp_def, Mention.space, Mention.type, Namespace.toMember]

/-- Reading the tables gives the tree of the mentions, at any depth that none of their paths
exceeds. -/
theorem Holds.freeze_eq {t : PathTable} {ms : List Mention} (h : t.Holds [] ms)
    (hms : ∀ m ∈ ms, Legible m.1) {path : List String} (hpath : Legible path) {depth : Nat}
    (hdepth : ∀ m ∈ Mention.below path ms, m.1.length ≤ depth) (name parent : String) :
    t.freeze (depth + 1) (dotted path) name parent =
      some ⟨name, parent, Mention.tree (dotted path) (Mention.below path ms)⟩ := by
  -- the mentions get shorter by the segment that leads on
  induction depth generalizing path name parent with
  | zero =>
    apply h.freeze_succ hpath
    intro part hpart
    obtain ⟨parts, n, hm⟩ := Mention.mem_spaces.mp hpart
    exact absurd (hdepth _ hm) (Nat.not_succ_le_zero _)
  | succ depth ih =>
    apply h.freeze_succ hpath
    intro part hpart
    obtain ⟨parts, n, hm⟩ := Mention.mem_spaces.mp hpart
    have hmention : Legible (path ++ part :: parts) := hms _ (Mention.mem_below.mp hm)
    have hlonger : Legible (path ++ [part]) := hmention.front ⟨parts, by simp⟩
    rw [hpath.extendPath_dotted (hmention.dotless part (by simp)), ← Mention.below_concat]
    apply ih hlonger
    rw [Mention.below_concat]
    exact Mention.length_le_of_mem_inside hdepth

section Endless

/-! The key of the global namespace goes on with an empty segment to itself. -/

variable {t : PathTable} {path key name : String}

/-- What a table has noted stays. -/
theorem mem_listed_add (h : name ∈ listed t.spaces key) (path : String) (parts : List String)
    (simple : String) : name ∈ listed (t.add path parts simple).spaces key := by
  induction parts generalizing t path with
  | nil => exact h
  | cons part parts ih =>
    rw [add]
    apply ih
    rw [listed_spaces_enter]
    by_cases hpath : path = key
    · rw [if_pos hpath]
      exact mem_addNew.mpr (Or.inl h)
    · rwa [if_neg hpath]

theorem empty_mem_ofMentions {ms : List Mention} {m : Mention} (hm : m ∈ ms)
    (h : m.1.head? = some "") : "" ∈ listed (ofMentions ms).spaces "" := by
  induction ms using List.reverseRecOn with
  | nil => cases hm
  | append_singleton ms last ih =>
    rw [ofMentions_concat]
    rcases List.mem_append.mp hm with hm | hm
    · exact mem_listed_add (ih hm) _ _ _
    · obtain rfl := List.mem_singleton.mp hm
      obtain ⟨parts, hparts⟩ := List.head?_eq_some_iff.mp h
      rw [hparts, add]
      apply mem_listed_add
      rw [listed_spaces_enter, if_pos rfl]
      exact mem_addNew.mpr (Or.inr rfl)

/-- A global namespace that is inside itself is read at no depth. -/
theorem freeze_eq_none (h : "" ∈ listed t.spaces "") (depth : Nat) (name parent : String) :
    t.freeze depth "" name parent = none := by
  induction depth generalizing name parent with
  | zero => rfl
  | succ depth ih =>
    have hinner : ((listed t.spaces "").mapM fun part =>
        t.freeze depth (extendPath "" part) part "") = none := mapM_eq_none h (ih "" "")
    rw [freeze, hinner]
    rfl

end Endless

end PathTable

end TierHost
