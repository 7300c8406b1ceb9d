import TierHost.Proofs.Listing
import TierHost.Tier.Cache
import Mathlib.Tactic.Common

/-!
What a cache holds. A fact about every stored value stays true of them whatever is looked up, stored
or forgotten.
-/

namespace TierHost.Cache

variable {κ ν : Type}

/-- The cache has a capacity that is not negative, and all its values are right for their keys. -/
structure Holds (P : κ → ν → Prop) (c : Cache κ ν) : Prop where
  room : 0 ≤ c.capacity
  right : ∀ k v, (k, some v) ∈ c.entries → P k v

variable {P : κ → ν → Prop} {c : Cache κ ν} {k : κ}

theorem holds_empty {capacity : Int} (h : 0 ≤ capacity) : (empty capacity : Cache κ ν).Holds P :=
  ⟨h, fun _ _ hm => absurd hm List.not_mem_nil⟩

variable [DecidableEq κ]

theorem get_fst (c : Cache κ ν) (k : κ) : (c.get k).1 = (c.entries.get? k).join := by
  unfold Cache.get
  cases c.entries.get? k with
  | none => rfl
  | some v => cases v <;> rfl

/-- A look-up that finds nothing is counted and changes nothing else. -/
theorem get_of_miss (h : (c.entries.get? k).join = none) :
    c.get k = (none, { c with misses := c.misses + 1 }) := by
  unfold Cache.get
  cases he : c.entries.get? k with
  | none => rfl
  | some v =>
    rw [he] at h
    obtain rfl : v = none := h
    rfl

/-- What a look-up gives is right, and it leaves only what was there. -/
theorem Holds.get (h : c.Holds P) :
    (∀ v, (c.get k).1 = some v → P k v) ∧ (c.get k).2.Holds P := by
  unfold Cache.get
  split
  · next v hv =>
    have hmem : (k, some v) ∈ c.entries := Listing.mem_of_get? hv
    refine ⟨?_, h.room, ?_⟩
    · intro v' hv'
      obtain rfl : v = v' := Option.some.inj hv'
      exact h.right k v hmem
    · intro k' v' hm
      -- the found entry moves to the end, and the others stay
      rcases List.mem_append.mp hm with hm | hm
      · exact h.right k' v' (List.mem_filter.mp hm).1
      · obtain ⟨hk, hv'⟩ := Prod.mk.inj (List.mem_singleton.mp hm)
        rw [hk, Option.some.inj hv']
        exact h.right k v hmem
  · refine ⟨?_, h.room, h.right⟩
    intro v hv
    cases hv

/-- Storing a value that is right for its key succeeds. -/
theorem Holds.put (h : c.Holds P) {v : ν} (hv : P k v) :
    (c.put k (some v)).1 = .ok () ∧ (c.put k (some v)).2.Holds P := by
  unfold Cache.put
  by_cases hz : c.capacity = 0
  · rw [if_pos hz]
    exact ⟨rfl, h⟩
  · have hroom := h.room
    rw [if_neg hz, if_neg (by omega)]
    refine ⟨rfl, hroom, ?_⟩
    intro k' v' hm
    -- forgetting the oldest entries only takes some away
    rcases List.mem_append.mp (List.mem_of_mem_drop hm) with hm | hm
    · exact h.right k' v' (List.mem_filter.mp hm).1
    · obtain ⟨hk, hv'⟩ := Prod.mk.inj (List.mem_singleton.mp hm)
      rw [hk, Option.some.inj hv']
      exact hv

end TierHost.Cache
