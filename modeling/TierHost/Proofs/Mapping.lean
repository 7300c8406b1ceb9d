import Mathlib.Data.List.Forall2

/-!
Lists mapped entry by entry: what equal images say about the entries, and when mapping with possible
failure succeeds.
-/

namespace TierHost

/-- Lists with the same images under `f` have the same images under `g`, if entries do. -/
theorem map_eq_of_map_eq {α β γ : Type} {f : α → β} {g : α → γ} {xs ys : List α}
    (h : ∀ x ∈ xs, ∀ y ∈ ys, f x = f y → g x = g y) (he : xs.map f = ys.map f) :
    xs.map g = ys.map g := by
  induction xs generalizing ys with
  | nil => rw [List.map_eq_nil_iff.mp he.symm]
  | cons x xs ih =>
    cases ys with
    | nil => simp at he
    | cons y ys =>
      simp only [List.map_cons, List.cons.injEq] at he ⊢
      refine ⟨h x List.mem_cons_self y List.mem_cons_self he.1, ih ?_ he.2⟩
      exact fun a ha b hb => h a (List.mem_cons_of_mem x ha) b (List.mem_cons_of_mem y hb)

theorem eq_of_map_eq {α β : Type} {f : α → β} {xs ys : List α}
    (h : ∀ x ∈ xs, ∀ y ∈ ys, f x = f y → x = y) (he : xs.map f = ys.map f) : xs = ys := by
  simpa only [List.map_id] using map_eq_of_map_eq (g := id) h he

/-- Entries that each have a counterpart make a list of counterparts. -/
theorem exists_map_eq {α β : Type} {f : α → β} {P : α → Prop} {xs : List α}
    (h : ∀ x ∈ xs, ∃ y, P y ∧ f y = f x) : ∃ ys : List α, (∀ y ∈ ys, P y) ∧ ys.map f = xs.map f := by
  induction xs with
  | nil => exact ⟨[], by simp, rfl⟩
  | cons x xs ih =>
    obtain ⟨y, hy, he⟩ := h x List.mem_cons_self
    obtain ⟨ys, hys, hes⟩ := ih fun a ha => h a (List.mem_cons_of_mem x ha)
    refine ⟨y :: ys, ?_, by rw [List.map_cons, List.map_cons, he, hes]⟩
    intro a ha
    rcases List.mem_cons.mp ha with rfl | ha
    · exact hy
    · exact hys a ha

/-- A relation that holds of exactly the images of entries, if these are as they should be, holds entry
by entry of exactly the images of a list. -/
theorem forall₂_iff_map {α β : Type} {R : β → α → Prop} {f : α → β} {P : α → Prop} {xs : List β}
    {ys : List α} (h : ∀ y ∈ ys, ∀ x, R x y ↔ f y = x ∧ P y) :
    List.Forall₂ R xs ys ↔ ys.map f = xs ∧ ∀ y ∈ ys, P y := by
  induction ys generalizing xs with
  | nil => simp [List.forall₂_nil_right_iff, eq_comm]
  | cons y ys ih =>
    cases xs with
    | nil => simp [List.forall₂_nil_left_iff]
    | cons x xs =>
      rw [List.forall₂_cons, h y List.mem_cons_self x,
        ih fun b hb => h b (List.mem_cons_of_mem y hb)]
      simp only [List.map_cons, List.cons.injEq, List.forall_mem_cons]
      exact and_and_and_comm

theorem except_bind_eq_ok {ε α β : Type} (x : Except ε α) (f : α → Except ε β) (b : β) :
    x >>= f = .ok b ↔ ∃ a, x = .ok a ∧ f a = .ok b := by
  cases x <;> simp [bind, Except.bind]

theorem except_bind_eq_error {ε α β : Type} (x : Except ε α) (f : α → Except ε β) (e : ε) :
    x >>= f = .error e ↔ x = .error e ∨ ∃ a, x = .ok a ∧ f a = .error e := by
  cases x <;> simp [bind, Except.bind]

theorem except_map_eq_error {ε α β : Type} {f : α → β} {x : Except ε α} {e : ε} :
    x.map f = .error e ↔ x = .error e := by
  cases x <;> simp [Except.map]

/-- Mapping fails as some entry does. -/
theorem exists_of_mapM_eq_error {ε α β : Type} {f : α → Except ε β} {xs : List α} {e : ε}
    (h : xs.mapM f = .error e) : ∃ x ∈ xs, f x = .error e := by
  induction xs with
  | nil => cases h
  | cons x xs ih =>
    rw [List.mapM_cons, except_bind_eq_error] at h
    rcases h with hx | ⟨y, -, h⟩
    · exact ⟨x, List.mem_cons_self, hx⟩
    · rcases (except_bind_eq_error _ _ _).mp h with hxs | ⟨ys, -, h⟩
      · obtain ⟨x', hx', he⟩ := ih hxs
        exact ⟨x', List.mem_cons_of_mem x hx', he⟩
      · cases h

theorem mapM_eq_ok_iff {ε α β : Type} {f : α → Except ε β} {xs : List α} {ys : List β} :
    xs.mapM f = .ok ys ↔ List.Forall₂ (fun x y => f x = .ok y) xs ys := by
  induction xs generalizing ys with
  | nil =>
    constructor
    · intro h
      cases h
      exact .nil
    · intro h
      cases h
      rfl
  | cons x xs ih =>
    rw [List.mapM_cons]
    constructor
    · intro h
      cases hx : f x with
      | error e => rw [hx] at h; cases h
      | ok y =>
        rw [hx] at h
        cases hxs : xs.mapM f with
        | error e => rw [hxs] at h; cases h
        | ok zs =>
          rw [hxs] at h
          cases h
          exact .cons hx (ih.mp hxs)
    · intro h
      cases h with
      | cons hx hxs => rw [hx, ih.mpr hxs]; rfl

theorem exists_mapM_ok {ε α β : Type} {f : α → Except ε β} {xs : List α}
    (h : ∀ x ∈ xs, ∃ y, f x = .ok y) : ∃ ys, xs.mapM f = .ok ys := by
  induction xs with
  | nil => exact ⟨[], rfl⟩
  | cons x xs ih =>
    obtain ⟨y, hy⟩ := h x List.mem_cons_self
    obtain ⟨ys, hys⟩ := ih fun a ha => h a (List.mem_cons_of_mem x ha)
    exact ⟨y :: ys, mapM_eq_ok_iff.mpr (.cons hy (mapM_eq_ok_iff.mp hys))⟩

/-- Mapping with possible failure succeeds when every entry does, and what undoes it for each entry
undoes it for the list. -/
theorem exists_mapM_eq_ok {ε α β : Type} {f : α → Except ε β} {g : β → α} {xs : List α}
    (h : ∀ x ∈ xs, ∃ y, f x = .ok y ∧ g y = x) :
    ∃ ys, xs.mapM f = .ok ys ∧ ys.map g = xs ∧ ∀ y ∈ ys, f (g y) = .ok y := by
  induction xs with
  | nil => exact ⟨[], rfl, rfl, by simp⟩
  | cons x xs ih =>
    obtain ⟨y, hy, rfl⟩ := h x List.mem_cons_self
    obtain ⟨ys, hys, hmap, hall⟩ := ih fun a ha => h a (List.mem_cons_of_mem _ ha)
    refine ⟨y :: ys, ?_, by rw [List.map_cons, hmap], List.forall_mem_cons.mpr ⟨hy, hall⟩⟩
    rw [List.mapM_cons, hy, hys]
    rfl

theorem mapM_eq_some {α β : Type} {f : α → Option β} {g : α → β} {xs : List α}
    (h : ∀ x ∈ xs, f x = some (g x)) : xs.mapM f = some (xs.map g) := by
  induction xs with
  | nil => rfl
  | cons x xs ih =>
    rw [List.mapM_cons, h x List.mem_cons_self, ih fun a ha => h a (List.mem_cons_of_mem x ha)]
    rfl

theorem mapM_eq_none {α β : Type} {f : α → Option β} {xs : List α} {x : α} (hx : x ∈ xs)
    (h : f x = none) : xs.mapM f = none := by
  induction xs with
  | nil => cases hx
  | cons a xs ih =>
    rw [List.mapM_cons]
    rcases List.mem_cons.mp hx with rfl | hx
    · rw [h]
      rfl
    · cases f a with
      | none => rfl
      | some b => rw [ih hx]; rfl

end TierHost
