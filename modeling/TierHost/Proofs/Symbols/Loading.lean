import TierHost.Proofs.Symbols.Placed

/-!
Which forms are read as symbols, and what is read from them: a form is read exactly when it is that of
symbols with their paths in place, and these are what is read.
-/

namespace TierHost

namespace Dump

theorem loadTypes_eq_mapM (space outer : String) (forms : List Sexp) :
    loadTypes space outer forms = forms.mapM (loadType space outer) := by
  induction forms with
  | nil => rfl
  | cons form forms ih => rw [loadTypes, List.mapM_cons, ih]

theorem loadMembers_eq_mapM (path : String) (forms : List Sexp) :
    loadMembers path forms = forms.mapM (loadMember path) := by
  induction forms with
  | nil => rfl
  | cons form forms ih => rw [loadMembers, List.mapM_cons, ih]

theorem tagOf_eq_ok_iff {head : Sexp} {tag : String} :
    tagOf head = .ok tag ↔ head = .symbol tag := by
  cases head <;> simp [tagOf]

/-- What is read as a type: a form of the tag, a name, and the types nested in it. -/
theorem loadType_eq_ok_iff {space outer : String} {form : Sexp} {t : NamedType} :
    loadType space outer form = .ok t ↔
      ∃ name parts nested, form = .list (.symbol "type" :: .text name :: parts) ∧
        parts.mapM (loadType space (extendPath outer name)) = .ok nested ∧
        t = ⟨name, space, outer, nested⟩ := by
  constructor
  · intro h
    unfold loadType at h
    split at h
    · next head body =>
      obtain ⟨tag, htag, h⟩ := (except_bind_eq_ok _ _ _).mp h
      obtain rfl := tagOf_eq_ok_iff.mp htag
      by_cases hne : tag = "type"
      · subst hne
        simp only [bne_self_eq_false, Bool.false_eq_true, if_false] at h
        split at h
        · next name parts _ =>
          rw [loadTypes_eq_mapM] at h
          obtain ⟨nested, hn, h⟩ := (except_bind_eq_ok _ _ _).mp h
          exact ⟨name, parts, nested, rfl, hn, (Except.ok.inj h).symm⟩
        · cases h
      · simp only [bne_iff_ne.mpr hne, if_true] at h
        cases h
    · cases h
  · rintro ⟨name, parts, nested, rfl, hn, rfl⟩
    rw [← loadTypes_eq_mapM] at hn
    rw [loadType, hn]
    rfl

/-- What is read as a member: a namespace with a name of one segment, or a type. -/
theorem loadMember_eq_ok_iff {path : String} {form : Sexp} {m : Member} :
    loadMember path form = .ok m ↔
      (∃ name parts members, form = .list (.symbol "namespace" :: .text name :: parts) ∧
        name ≠ "" ∧ '.' ∉ name.toList ∧
        parts.mapM (loadMember (extendPath path name)) = .ok members ∧
        m = .space name path members) ∨
      ∃ t, loadType path "" form = .ok t ∧ m = .type t := by
  constructor
  · intro h
    unfold loadMember at h
    split at h
    · next head body =>
      obtain ⟨tag, htag, h⟩ := (except_bind_eq_ok _ _ _).mp h
      obtain rfl := tagOf_eq_ok_iff.mp htag
      by_cases hs : tag = "namespace"
      · subst hs
        rw [if_pos rfl] at h
        split at h
        · next name parts _ =>
          by_cases hn : (name.isEmpty || name.toList.contains '.') = true
          · rw [if_pos hn] at h
            cases h
          · rw [if_neg hn, loadMembers_eq_mapM] at h
            obtain ⟨members, hm, h⟩ := (except_bind_eq_ok _ _ _).mp h
            rw [Bool.or_eq_true, not_or, String.isEmpty_iff, List.contains_iff_mem] at hn
            exact Or.inl ⟨name, parts, members, rfl, hn.1, hn.2, hm, (Except.ok.inj h).symm⟩
        · cases h
      · rw [if_neg hs] at h
        by_cases ht : tag = "type"
        · rw [if_pos ht] at h
          obtain ⟨t, hl, h⟩ := (except_bind_eq_ok _ _ _).mp h
          exact Or.inr ⟨t, hl, (Except.ok.inj h).symm⟩
        · rw [if_neg ht] at h
          cases h
    · cases h
  · rintro (⟨name, parts, members, rfl, hn, hd, hm, rfl⟩ | ⟨t, hl, rfl⟩)
    · rw [← loadMembers_eq_mapM] at hm
      have hc : ¬ (name.isEmpty || name.toList.contains '.') = true := by
        rw [Bool.or_eq_true, not_or, String.isEmpty_iff, List.contains_iff_mem]
        exact ⟨hn, hd⟩
      unfold loadMember
      change (if (name.isEmpty || name.toList.contains '.') = true then _ else _) = _
      rw [if_neg hc, hm]
      rfl
    · obtain ⟨name, parts, nested, rfl, -, -⟩ := loadType_eq_ok_iff.mp hl
      unfold loadMember
      dsimp only [tagOf, bind, Except.bind]
      rw [if_neg (by decide), if_pos rfl, hl]
      rfl

/-- Reading entry by entry gives exactly the entries whose forms are read. -/
theorem mapM_eq_ok_iff_map {α : Type} {load : Sexp → Except DumpError α} {form : α → Sexp}
    {P : α → Prop} {forms : List Sexp} {as : List α}
    (h : ∀ a ∈ as, ∀ f, load f = .ok a ↔ form a = f ∧ P a) :
    forms.mapM load = .ok as ↔ as.map form = forms ∧ ∀ a ∈ as, P a := by
  rw [mapM_eq_ok_iff]
  exact forall₂_iff_map h

/-- Reading a type gives exactly the type of that form with the given paths. -/
theorem loadType_iff {space outer : String} {form : Sexp} {t : NamedType} :
    loadType space outer form = .ok t ↔ typeForm t = form ∧ t.Placed space outer := by
  induction t using NamedType.induction generalizing outer form with
  | type name space' outer' nested ih =>
    have hm (parts : List Sexp) :
        parts.mapM (loadType space (extendPath outer name)) = .ok nested ↔
          nested.map typeForm = parts ∧ ∀ t ∈ nested, t.Placed space (extendPath outer name) :=
      mapM_eq_ok_iff_map fun t ht _ => ih t ht
    rw [loadType_eq_ok_iff, typeForm_mk]
    constructor
    · rintro ⟨name', parts, nested', rfl, hn, he⟩
      cases he
      obtain ⟨rfl, hp⟩ := (hm parts).mp hn
      exact ⟨rfl, .intro hp⟩
    · rintro ⟨rfl, hp⟩
      cases hp with
      | intro hp => exact ⟨name, _, nested, rfl, (hm _).mpr ⟨rfl, hp⟩, rfl⟩

/-- Reading a member gives exactly the member of that form with the given path, if its namespaces
have names of one segment. -/
theorem loadMember_iff {path : String} {form : Sexp} {m : Member} :
    loadMember path form = .ok m ↔ memberForm m = form ∧ m.Placed path ∧ m.Segmented := by
  induction m using Member.induction generalizing path form with
  | space name parent members ih =>
    -- the reader extends the path by this name, and that is where the members are placed
    have hm (parts : List Sexp) :
        parts.mapM (loadMember (extendPath path name)) = .ok members ↔
          members.map memberForm = parts ∧
            ∀ m ∈ members, m.Placed (extendPath path name) ∧ m.Segmented :=
      mapM_eq_ok_iff_map fun m hm _ => ih m hm
    rw [loadMember_eq_ok_iff, memberForm_space]
    constructor
    · rintro (⟨name', parts, members', rfl, hn, hd, hl, he⟩ | ⟨t, -, he⟩)
      · cases he
        obtain ⟨rfl, hp⟩ := (hm parts).mp hl
        exact ⟨rfl, .space fun m h => (hp m h).1, .space hn hd fun m h => (hp m h).2⟩
      · cases he
    · rintro ⟨rfl, hp, hs⟩
      cases hp with
      | space hp =>
        cases hs with
        | space hn hd hs =>
          refine Or.inl ⟨name, _, members, rfl, hn, hd, ?_, rfl⟩
          exact (hm _).mpr ⟨rfl, fun m h => ⟨hp m h, hs m h⟩⟩
  | type t =>
    rw [loadMember_eq_ok_iff, memberForm]
    constructor
    · rintro (⟨_, _, _, _, _, _, _, he⟩ | ⟨u, hu, he⟩)
      · cases he
      · cases he
        obtain ⟨hf, hp⟩ := loadType_iff.mp hu
        exact ⟨hf, .type hp, .type t⟩
    · rintro ⟨rfl, hp, -⟩
      cases hp with
      | type hp => exact Or.inr ⟨t, loadType_iff.mpr ⟨rfl, hp⟩, rfl⟩

theorem loadMembers_iff {path : String} {forms : List Sexp} {members : List Member} :
    loadMembers path forms = .ok members ↔
      members.map memberForm = forms ∧ ∀ m ∈ members, m.Placed path ∧ m.Segmented := by
  rw [loadMembers_eq_mapM]
  exact mapM_eq_ok_iff_map fun m _ f => loadMember_iff

theorem loadAssemblyForm_iff {form : Sexp} {a : Assembly} :
    loadAssemblyForm form = .ok a ↔ assemblyForm a = form ∧ a.Placed ∧ a.Segmented := by
  constructor
  · intro h
    unfold loadAssemblyForm at h
    split at h
    · next head body =>
      obtain ⟨tag, htag, h⟩ := (except_bind_eq_ok _ _ _).mp h
      obtain rfl := tagOf_eq_ok_iff.mp htag
      by_cases hne : tag = "assembly"
      · subst hne
        simp only [bne_self_eq_false, Bool.false_eq_true, if_false] at h
        split at h
        · next name parts _ =>
          obtain ⟨members, hm, h⟩ := (except_bind_eq_ok _ _ _).mp h
          obtain rfl := (Except.ok.inj h).symm
          obtain ⟨rfl, hp⟩ := loadMembers_iff.mp hm
          refine ⟨by rw [assemblyForm, memberForms_eq_map], ?_, rfl, fun m h => (hp m h).2⟩
          exact .space fun m h => (hp m h).1
        · cases h
      · simp only [bne_iff_ne.mpr hne, if_true] at h
        cases h
    · cases h
  · rintro ⟨rfl, hp, hu, hs⟩
    rcases a with ⟨name, ⟨root, parent, members⟩⟩
    obtain rfl : root = "" := hu
    cases hp with
    | space hp =>
      have hm : loadMembers "" (memberForms members) = .ok members :=
        loadMembers_iff.mpr ⟨(memberForms_eq_map members).symm, fun m h => ⟨hp m h, hs m h⟩⟩
      dsimp only [assemblyForm, loadAssemblyForm, tagOf, bind, Except.bind]
      rw [hm]
      rfl

theorem loadCompilationForm_iff {form : Sexp} {c : Compilation} :
    loadCompilationForm form = .ok c ↔ compilationForm c = form ∧ c.Placed ∧ c.Segmented := by
  have hm (parts : List Sexp) (as : List Assembly) :
      parts.mapM loadAssemblyForm = .ok as ↔
        as.map assemblyForm = parts ∧ ∀ a ∈ as, a.Placed ∧ a.Segmented :=
    mapM_eq_ok_iff_map fun a _ _ => loadAssemblyForm_iff
  constructor
  · intro h
    unfold loadCompilationForm at h
    split at h
    · next head body =>
      obtain ⟨tag, htag, h⟩ := (except_bind_eq_ok _ _ _).mp h
      obtain rfl := tagOf_eq_ok_iff.mp htag
      by_cases hne : tag = "compilation"
      · subst hne
        simp only [bne_self_eq_false, Bool.false_eq_true, if_false] at h
        obtain ⟨as, ha, h⟩ := (except_bind_eq_ok _ _ _).mp h
        obtain rfl := (Except.ok.inj h).symm
        obtain ⟨hf, hp⟩ := (hm _ _).mp ha
        refine ⟨?_, fun a h => (hp a h).1, fun a h => (hp a h).2⟩
        rw [compilationForm]
        dsimp only
        rw [hf]
        split <;> rfl
      · simp only [bne_iff_ne.mpr hne, if_true] at h
        cases h
    · cases h
  · rintro ⟨rfl, hp, hs⟩
    have ha : (c.references.map assemblyForm).mapM loadAssemblyForm = .ok c.references :=
      (hm _ _).mpr ⟨rfl, fun a h => ⟨hp a h, hs a h⟩⟩
    rcases c with ⟨_ | name, references⟩
    · cases references with
      | nil => rfl
      | cons a as =>
        change (do return Compilation.mk none (← ((a :: as).map assemblyForm).mapM loadAssemblyForm)) = _
        rw [ha]
        rfl
    · change (do return Compilation.mk (some name) (← (references.map assemblyForm).mapM loadAssemblyForm))
        = _
      rw [ha]
      rfl

end Dump

end TierHost
