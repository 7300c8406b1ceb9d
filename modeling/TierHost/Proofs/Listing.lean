import TierHost.Listing
import Mathlib.Data.List.Nodup

/-!
Dictionaries: every key stands in one entry, so that looking a key up finds the entries that are there.
-/

namespace TierHost.Listing

variable {κ ν : Type} [DecidableEq κ]

omit [DecidableEq κ] in
theorem keys_append (l l' : Listing κ ν) : keys (l ++ l') = keys l ++ keys l' := List.map_append

theorem mem_of_get? {l : Listing κ ν} {k : κ} {v : ν} (h : l.get? k = some v) : (k, v) ∈ l := by
  obtain ⟨⟨k', v'⟩, hf, hv⟩ := Option.map_eq_some_iff.mp h
  obtain rfl : v' = v := hv
  have hk : k' = k := by simpa using List.find?_some hf
  rw [← hk]
  exact List.mem_of_find?_eq_some hf

theorem get?_cons (e : κ × ν) (l : Listing κ ν) (k : κ) :
    get? (e :: l) k = if e.1 = k then some e.2 else l.get? k := by
  by_cases h : e.1 = k <;> simp [get?, h]

theorem get?_of_mem {l : Listing κ ν} (hl : l.keys.Nodup) {k : κ} {v : ν} (h : (k, v) ∈ l) :
    l.get? k = some v := by
  induction l with
  | nil => cases h
  | cons e l ih =>
    rw [keys_cons, List.nodup_cons] at hl
    rw [get?_cons]
    rcases List.mem_cons.mp h with rfl | h
    · rw [if_pos rfl]
    · have hne : e.1 ≠ k := by
        rintro rfl
        exact hl.1 (List.mem_map.mpr ⟨_, h, rfl⟩)
      rw [if_neg hne, ih hl.2 h]

theorem nodup_keys_put {l : Listing κ ν} (hl : l.keys.Nodup) (k : κ) (v : ν) :
    (put k v l).keys.Nodup := by
  rw [keys_put]
  by_cases hk : k ∈ l.keys
  · rwa [if_pos hk]
  · rw [if_neg hk]
    exact hl.append (List.nodup_singleton k) (List.disjoint_singleton.mpr hk)

theorem put_of_notMem {l : Listing κ ν} {k : κ} (h : k ∉ l.keys) (v : ν) :
    put k v l = l ++ [(k, v)] := by
  induction l with
  | nil => rfl
  | cons e rest ih =>
    rw [keys_cons, List.mem_cons, not_or] at h
    rw [put, if_neg (Ne.symm h.1), ih h.2, List.cons_append]

/-- Entries under new keys go to the end, in their order. -/
theorem foldl_put_eq_append {l entries : Listing κ ν} (hnodup : entries.keys.Nodup)
    (hnew : ∀ k ∈ entries.keys, k ∉ l.keys) :
    entries.foldl (fun l e => put e.1 e.2 l) l = l ++ entries := by
  induction entries generalizing l with
  | nil => rw [List.foldl_nil, List.append_nil]
  | cons e entries ih =>
    rw [keys_cons, List.nodup_cons] at hnodup
    rw [keys_cons, List.forall_mem_cons] at hnew
    rw [List.foldl_cons, put_of_notMem hnew.1, ih hnodup.2, List.append_assoc, List.singleton_append]
    intro k hk
    have hne : k ≠ e.1 := fun he => hnodup.1 (he ▸ hk)
    rw [keys_append, List.mem_append, not_or]
    exact ⟨hnew.2 k hk, by simpa [keys] using hne⟩

theorem get?_put (k k' : κ) (v : ν) (l : Listing κ ν) :
    (put k v l).get? k' = if k = k' then some v else l.get? k' := by
  by_cases h : k = k'
  · rw [if_pos h, ← h, get?_put_self]
  · rw [if_neg h, get?_put_of_ne (Ne.symm h)]

theorem mem_put {k : κ} {v : ν} {l : Listing κ ν} {e : κ × ν} (h : e ∈ put k v l) :
    e = (k, v) ∨ e ∈ l := by
  induction l with
  | nil => exact Or.inl (List.mem_singleton.mp h)
  | cons e' rest ih =>
    rw [put] at h
    by_cases he : e'.1 = k
    · rw [if_pos he] at h
      exact (List.mem_cons.mp h).imp id (List.mem_cons_of_mem e')
    · rw [if_neg he] at h
      rcases List.mem_cons.mp h with rfl | h
      · exact Or.inr List.mem_cons_self
      · exact (ih h).imp id (List.mem_cons_of_mem e')

theorem get?_eq_none_iff {l : Listing κ ν} {k : κ} : l.get? k = none ↔ k ∉ l.keys := by
  rw [get?, Option.map_eq_none_iff, List.find?_eq_none, keys, List.mem_map]
  constructor
  · intro h hk
    obtain ⟨e, he, hk⟩ := hk
    exact h e he (decide_eq_true hk)
  · intro h e he hk
    exact h ⟨e, he, of_decide_eq_true hk⟩

theorem get?_eq_none {l : Listing κ ν} {k : κ} (h : k ∉ l.keys) : l.get? k = none :=
  get?_eq_none_iff.mpr h

omit [DecidableEq κ] in
theorem keys_filter (p : κ → Bool) (l : Listing κ ν) :
    Listing.keys (l.filter fun e => p e.1) = l.keys.filter p := by
  rw [keys, keys, List.filter_map]
  rfl

theorem keys_remove (k : κ) (l : Listing κ ν) : (l.remove k).keys = l.keys.filter (· ≠ k) :=
  keys_filter (fun k' => k' ≠ k) l

theorem get?_remove (k k' : κ) (l : Listing κ ν) :
    (l.remove k).get? k' = if k = k' then none else l.get? k' := by
  by_cases h : k = k'
  · rw [if_pos h]
    apply get?_eq_none
    rw [keys_remove, List.mem_filter, decide_eq_true_eq, not_and_not_right]
    exact fun _ => h.symm
  · rw [if_neg h, remove, get?, get?, List.find?_filter]
    congr 2
    funext e
    by_cases he : e.1 = k' <;> simp [he, Ne.symm h]

/-- Putting a value in and mapping the values may change places. -/
theorem map_put {ν' : Type} (f : ν → ν') (k : κ) (v : ν) (l : Listing κ ν) :
    (put k v l).map (fun e => (e.1, f e.2)) = put k (f v) (l.map fun e => (e.1, f e.2)) := by
  induction l with
  | nil => rfl
  | cons e l ih =>
    rw [List.map_cons, put, put]
    by_cases h : e.1 = k
    · rw [if_pos h, if_pos h, List.map_cons]
    · rw [if_neg h, if_neg h, List.map_cons, ih]

omit [DecidableEq κ] in
theorem nodup_keys_filter {l : Listing κ ν} (h : l.keys.Nodup) (p : κ × ν → Bool) :
    (Listing.keys (l.filter p)).Nodup :=
  h.sublist (List.filter_sublist.map Prod.fst)

end TierHost.Listing
