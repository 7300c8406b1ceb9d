import TierHost.Proofs.Tier.Recency

/-!
A cache that forgets the key used longest ago. After any history it holds the keys used last, as many as
it has room for, each with the value it was given last.
-/

namespace TierHost.Cache

variable {κ ν : Type} [DecidableEq κ]

/-- The entries of the cache are those of the keys used last, each with its latest value. -/
structure Recent (n : ℕ) (c : Cache κ ν) (log : List (Op κ ν × Option ν)) : Prop where
  capacity : c.capacity = n
  keys : c.entries.keys = (recency log).rtake n
  values : ∀ e ∈ c.entries, latest? e.1 (log.map Prod.fst) = some e.2

theorem recent_empty (n : ℕ) : (empty n : Cache κ ν).Recent n [] :=
  ⟨rfl, (List.rtake_nil n).symm, fun _ he => absurd he List.not_mem_nil⟩

variable {n : ℕ} {c : Cache κ ν} {log : List (Op κ ν × Option ν)} {k : κ}

theorem keys_touched (k : κ) (v : Option ν) (l : Listing κ (Option ν)) :
    Listing.keys (l.remove k ++ [(k, v)]) = touch l.keys k := by
  rw [Listing.keys_append, Listing.keys_remove]
  rfl

namespace Recent

theorem nodup_keys (h : c.Recent n log) : c.entries.keys.Nodup := by
  rw [h.keys]
  exact (nodup_recency log).sublist (List.drop_sublist _ _)

/-- A look-up that finds a value makes its key the latest. -/
theorem get_hit (h : c.Recent n log) {v : ν} (hv : c.entries.get? k = some (some v)) :
    (c.get k).1 = some v ∧ (c.get k).2.Recent n (log ++ [(.get k, some v)]) := by
  have hmem : (k, some v) ∈ c.entries := Listing.mem_of_get? hv
  have hget : c.get k = (some v,
      { c with entries := c.entries.remove k ++ [(k, some v)], hits := c.hits + 1 }) := by
    rw [Cache.get, hv]
  have hkept : k ∈ (recency log).rtake n := h.keys ▸ List.mem_map_of_mem hmem
  rw [hget]
  refine ⟨rfl, h.capacity, ?_, ?_⟩
  · rw [recency_of_used (k := k) rfl, rtake_touch_of_mem (nodup_recency log) hkept, ← h.keys]
    exact keys_touched k (some v) c.entries
  · intro e he
    rw [List.map_append, List.map_singleton, latest?_get]
    rcases List.mem_append.mp he with he | he
    · exact h.values e (List.mem_of_mem_filter he)
    · rw [List.mem_singleton.mp he]
      exact h.values _ hmem

/-- A look-up that finds nothing changes only the count of misses. -/
theorem get_miss (h : c.Recent n log) (hv : (c.entries.get? k).join = none) :
    (c.get k).1 = none ∧ (c.get k).2.Recent n (log ++ [(.get k, none)]) := by
  rw [get_of_miss hv]
  refine ⟨rfl, h.capacity, ?_, ?_⟩
  · rw [recency_get]
    exact h.keys
  · intro e he
    rw [List.map_append, List.map_singleton, latest?_get]
    exact h.values e he

/-- Storing a value makes its key the latest, and what there is no room for any more is forgotten. -/
theorem put (h : c.Recent n log) (k : κ) (v : Option ν) :
    (c.put k v).1 = .ok () ∧ (c.put k v).2.Recent n (log ++ [(.put k v, none)]) := by
  have hrecency : recency (log ++ [(.put k v, none)]) = touch (recency log) k := recency_of_used rfl log
  by_cases hzero : n = 0
  · -- without room nothing is kept, before and after
    subst hzero
    have hcapacity : c.capacity = 0 := h.capacity
    have hput : c.put k v = (.ok (), c) := by
      rw [Cache.put, if_pos hcapacity]
    have hnone : c.entries = [] := by
      have hkeys := h.keys
      rw [List.rtake_zero] at hkeys
      exact List.map_eq_nil_iff.mp hkeys
    rw [hput]
    refine ⟨rfl, h.capacity, ?_, ?_⟩
    · rw [List.rtake_zero, hnone]
      rfl
    · intro e he
      rw [hnone] at he
      cases he
  · have hcapacity := h.capacity
    have hput : c.put k v =
        (.ok (), { c with entries := (c.entries.remove k ++ [(k, v)]).rtake n }) := by
      rw [Cache.put, if_neg (by omega), if_neg (by omega), hcapacity]
      rfl
    rw [hput]
    refine ⟨rfl, h.capacity, ?_, ?_⟩
    · have hkeys : Listing.keys ((c.entries.remove k ++ [(k, v)]).rtake n) =
          (touch c.entries.keys k).rtake n := by
        rw [← keys_touched k v, List.rtake, List.rtake, Listing.keys, Listing.keys, List.map_drop,
          List.length_map]
      rw [hrecency, hkeys, h.keys]
      exact rtake_touch (nodup_recency log) k n
    · intro e he
      rw [List.map_append, List.map_singleton, latest?_put]
      rcases List.mem_append.mp (List.mem_of_mem_drop he) with he | he
      · obtain ⟨hmem, hne⟩ := List.mem_filter.mp he
        rw [if_neg (Ne.symm (of_decide_eq_true hne))]
        exact h.values e hmem
      · rw [List.mem_singleton.mp he, if_pos rfl]

theorem clear (h : c.Recent n log) : c.clear.Recent n (log ++ [(.clear, none)]) := by
  refine ⟨h.capacity, ?_, fun _ he => absurd he List.not_mem_nil⟩
  rw [recency_clear, List.rtake_nil]
  rfl

/-- Every operation keeps the cache at the keys used last. -/
theorem step (h : c.Recent n log) (op : Op κ ν) :
    (c.step op).2.Recent n (log ++ [(op, (c.step op).1)]) := by
  cases op with
  | get k =>
    show (c.get k).2.Recent n (log ++ [(.get k, (c.get k).1)])
    cases hv : (c.entries.get? k).join with
    | none =>
      obtain ⟨hanswer, hrecent⟩ := h.get_miss hv
      rwa [hanswer]
    | some v =>
      obtain ⟨hanswer, hrecent⟩ := h.get_hit (Option.join_eq_some_iff.mp hv)
      rwa [hanswer]
  | put k v => exact (h.put k v).2
  | clear => exact h.clear

/-- A key is found exactly if it has a value and fewer other keys than there is room for were used since
its last use. -/
theorem get_eq_some_iff (h : c.Recent n log) {v : ν} :
    (c.get k).1 = some v ↔
      latest? k (log.map Prod.fst) = some (some v) ∧ (usedSince k log).card < n := by
  have hkept (hk : k ∈ recency log) : k ∈ c.entries.keys ↔ (usedSince k log).card < n := by
    obtain ⟨before, behind, hsplit, hbehind⟩ := exists_behind hk
    have hnodup : (before ++ k :: behind).Nodup := hsplit ▸ nodup_recency log
    have hcard : (usedSince k log).card = behind.length := by
      rw [← hbehind]
      exact List.toFinset_card_of_nodup (List.nodup_cons.mp (List.nodup_append.mp hnodup).2.1).2
    rw [h.keys, hsplit, mem_rtake_iff hnodup, hcard]
  rw [get_fst, Option.join_eq_some_iff]
  constructor
  · intro hget
    have hmem : (k, some v) ∈ c.entries := Listing.mem_of_get? hget
    have hkeys : k ∈ c.entries.keys := List.mem_map_of_mem hmem
    have hlatest := h.values _ hmem
    exact ⟨hlatest, (hkept (mem_recency_of_latest? hlatest)).mp hkeys⟩
  · rintro ⟨hlatest, hcard⟩
    obtain ⟨⟨k', v'⟩, hmem, rfl⟩ :=
      List.mem_map.mp ((hkept (mem_recency_of_latest? hlatest)).mpr hcard)
    -- the value that is stored is the latest one
    have hvalue : v' = some v := Option.some.inj ((h.values _ hmem).symm.trans hlatest)
    rw [← hvalue]
    exact Listing.get?_of_mem h.nodup_keys hmem

theorem size_le (h : c.Recent n log) : c.size ≤ n := by
  have hlength := congrArg List.length h.keys
  rw [length_rtake, Listing.keys, List.length_map] at hlength
  rw [size]
  omega

end Recent

theorem recent_after (n : ℕ) (ops : List (Op κ ν)) :
    ((empty n).after ops).Recent n ((empty n).log ops) := by
  induction ops using List.reverseRecOn with
  | nil => exact recent_empty n
  | append_singleton ops op ih =>
    rw [after_concat, log_concat]
    exact ih.step op

/-- Every look-up is counted once, and as a hit if it is answered with a value. -/
theorem counts_after (c : Cache κ ν) (ops : List (Op κ ν)) :
    (c.after ops).hits = c.hits + (c.log ops).countP (fun e => e.2.isSome) ∧
      (c.after ops).hits + (c.after ops).misses = c.hits + c.misses + ops.countP Op.isGet := by
  induction ops generalizing c with
  | nil => exact ⟨rfl, rfl⟩
  | cons op ops ih =>
    have hstep : (c.step op).2.hits = c.hits + (if (c.step op).1.isSome then 1 else 0) ∧
        (c.step op).2.hits + (c.step op).2.misses =
          c.hits + c.misses + (if op.isGet then 1 else 0) := by
      cases op with
      | clear => exact ⟨rfl, rfl⟩
      | put k v =>
        have hputs : (c.put k v).2.hits = c.hits ∧ (c.put k v).2.misses = c.misses := by
          rw [Cache.put]
          split_ifs <;> exact ⟨rfl, rfl⟩
        exact ⟨hputs.1, (congrArg₂ (· + ·) hputs.1 hputs.2 : _ = c.hits + c.misses)⟩
      | get k =>
        rw [step, Cache.get]
        split
        · exact ⟨rfl, Nat.add_right_comm _ _ _⟩
        · exact ⟨rfl, rfl⟩
    obtain ⟨hhits, htotal⟩ := ih (c.step op).2
    rw [Cache.log, List.countP_cons, List.countP_cons]
    dsimp only at hstep ⊢
    show ((c.step op).2.after ops).hits = _ ∧
      ((c.step op).2.after ops).hits + ((c.step op).2.after ops).misses = _
    omega

theorem map_fst_log (c : Cache κ ν) (ops : List (Op κ ν)) : (c.log ops).map Prod.fst = ops := by
  induction ops generalizing c with
  | nil => rfl
  | cons op ops ih => rw [Cache.log, List.map_cons, ih]

/-- After any operations on a cache with room for `n` keys, it holds at most `n` keys. A key is found
with a value exactly if that is the value it was given last and not cleared since, and fewer than `n`
other keys were stored or found since it was last stored or found; when it is not found, the entries stay
as they are and in their order. Every look-up is counted, as a hit if it gave a value. -/
theorem after_lru (n : ℕ) (ops : List (Op κ ν)) :
    let c : Cache κ ν := (empty n).after ops
    let log := (empty n : Cache κ ν).log ops
    c.size ≤ n ∧
    (∀ k v, (c.get k).1 = some v ↔ latest? k ops = some (some v) ∧ (usedSince k log).card < n) ∧
    (∀ k, (c.get k).1 = none → (c.get k).2.entries = c.entries) ∧
    (∀ k v, (c.put k v).1 = .ok ()) ∧
    c.hits + c.misses = ops.countP Op.isGet ∧ c.hits = log.countP fun e => e.2.isSome := by
  intro c log
  have hrecent : c.Recent n log := recent_after n ops
  have hops : log.map Prod.fst = ops := map_fst_log _ ops
  obtain ⟨hhits, htotal⟩ := counts_after (empty n : Cache κ ν) ops
  refine ⟨hrecent.size_le, ?_, ?_, fun k v => (hrecent.put k v).1, ?_, ?_⟩
  · intro k v
    rw [hrecent.get_eq_some_iff, hops]
  · intro k hnone
    rw [get_fst] at hnone
    rw [get_of_miss hnone]
  · exact htotal.trans (Nat.zero_add _)
  · exact hhits.trans (Nat.zero_add _)

end TierHost.Cache
