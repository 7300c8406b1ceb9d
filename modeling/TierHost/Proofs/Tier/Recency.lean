import TierHost.Proofs.Tier.Cache
import Mathlib.Data.Finset.Card
import Mathlib.Data.Finset.Lattice.Lemmas
import Mathlib.Data.List.DropRight
import Mathlib.Data.List.Induction

/-!
Histories of a cache. The keys that were used since the last clearing, each at the place of its last use,
are the order in which an unbounded cache would hold them; a bounded one holds the end of that order.
-/

namespace TierHost

section Touch

variable {κ : Type} [DecidableEq κ]

/-- The keys with this one moved, or added, to the end. -/
def touch (ks : List κ) (k : κ) : List κ := ks.filter (· ≠ k) ++ [k]

theorem nodup_touch {ks : List κ} (h : ks.Nodup) (k : κ) : (touch ks k).Nodup := by
  refine (h.filter _).append (List.nodup_singleton k) (List.disjoint_singleton.mpr ?_)
  intro hk
  exact of_decide_eq_true (List.mem_filter.mp hk).2 rfl

theorem mem_touch {ks : List κ} {k k' : κ} : k ∈ touch ks k' ↔ k = k' ∨ k ∈ ks := by
  rw [touch, List.mem_append, List.mem_filter, List.mem_singleton]
  by_cases hk : k = k' <;> simp [hk]

theorem rtake_of_length_le {α : Type} {l : List α} {n : ℕ} (h : l.length ≤ n) : l.rtake n = l := by
  rw [List.rtake, Nat.sub_eq_zero_of_le h, List.drop_zero]

theorem rtake_append_of_le {α : Type} (l : List α) {l' : List α} {n : ℕ} (h : n ≤ l'.length) :
    (l ++ l').rtake n = l'.rtake n := by
  have hdrop : (l ++ l').length - n = l.length + (l'.length - n) := by
    rw [List.length_append]
    omega
  rw [List.rtake, hdrop, List.drop_length_add_append, List.rtake]

theorem length_rtake {α : Type} (l : List α) (n : ℕ) : (l.rtake n).length = min n l.length := by
  rw [List.rtake, List.length_drop]
  omega

/-- Of different keys at most one is moved. -/
theorem length_le_length_touch {ks : List κ} (h : ks.Nodup) (k : κ) :
    ks.length ≤ (touch ks k).length := by
  have hsplit := List.length_eq_length_filter_add (l := ks) fun k' => decide (k' ≠ k)
  have hone : (ks.filter fun k' => !decide (k' ≠ k)).length ≤ 1 := by
    have hcount := List.nodup_iff_count_le_one.mp h k
    rw [List.count_eq_length_filter] at hcount
    refine le_trans (le_of_eq ?_) hcount
    exact congrArg List.length (List.filter_congr fun k' _ => by simp [beq_eq_decide])
  rw [touch, List.length_append, List.length_singleton]
  omega

/-- The last keys after a touch are known from the last keys before it. -/
theorem rtake_touch {ks : List κ} (h : ks.Nodup) (k : κ) (n : ℕ) :
    (touch (ks.rtake n) k).rtake n = (touch ks k).rtake n := by
  by_cases hle : ks.length ≤ n
  · rw [rtake_of_length_le hle]
  · -- what is cut off stands in front of as many keys as are kept
    have hsplit : ks.take (ks.length - n) ++ ks.rtake n = ks := List.take_append_drop _ ks
    have hnodup : (ks.rtake n).Nodup := h.sublist (List.drop_sublist _ ks)
    have hlength : n ≤ (touch (ks.rtake n) k).length := by
      have hkept := length_le_length_touch hnodup k
      rw [length_rtake] at hkept
      omega
    have htouch : touch ks k =
        (ks.take (ks.length - n)).filter (· ≠ k) ++ touch (ks.rtake n) k := by
      rw [touch, touch, ← List.append_assoc, ← List.filter_append, hsplit]
    rw [htouch, rtake_append_of_le _ hlength]

/-- Touching one of the last keys does not push any of them out. -/
theorem rtake_touch_of_mem {ks : List κ} (h : ks.Nodup) {k : κ} {n : ℕ} (hk : k ∈ ks.rtake n) :
    (touch ks k).rtake n = touch (ks.rtake n) k := by
  have hlength : (touch (ks.rtake n) k).length ≤ n := by
    have hless : ((ks.rtake n).filter (· ≠ k)).length < (ks.rtake n).length :=
      List.length_filter_lt_length_iff_exists.mpr ⟨k, hk, by simp⟩
    have hrtake := length_rtake ks n
    rw [touch, List.length_append, List.length_singleton]
    omega
  rw [← rtake_touch h, rtake_of_length_le hlength]

omit [DecidableEq κ] in
/-- A key is one of the last exactly if fewer keys than that stand behind it. -/
theorem mem_rtake_iff {before behind : List κ} {k : κ} (h : (before ++ k :: behind).Nodup) (n : ℕ) :
    k ∈ (before ++ k :: behind).rtake n ↔ behind.length < n := by
  have hbehind : k ∉ behind := (List.nodup_cons.mp (List.nodup_append.mp h).2.1).1
  constructor
  · intro hk
    by_contra hlt
    rw [List.append_cons, rtake_append_of_le _ (by omega)] at hk
    exact hbehind (List.mem_of_mem_drop hk)
  · intro hlt
    have hdrop : (before ++ k :: behind).length - n ≤ before.length := by
      rw [List.length_append, List.length_cons]
      omega
    rw [List.rtake, List.drop_append_of_le_length hdrop]
    exact List.mem_append_right _ List.mem_cons_self

end Touch

namespace Cache

variable {κ ν : Type} [DecidableEq κ]

/-- What may be done with a cache. -/
inductive Op (κ ν : Type) where
  | get (k : κ)
  | put (k : κ) (v : Option ν)
  | clear

def Op.isGet : Op κ ν → Bool
  | .get _ => true
  | _ => false

/-- What an operation is answered with, if anything, and the cache after it. -/
def step (c : Cache κ ν) : Op κ ν → Option ν × Cache κ ν
  | .get k => c.get k
  | .put k v => (none, (c.put k v).2)
  | .clear => (none, c.clear)

/-- The cache after operations one after another. -/
def after (c : Cache κ ν) (ops : List (Op κ ν)) : Cache κ ν :=
  ops.foldl (fun c op => (c.step op).2) c

/-- Operations one after another, with what each is answered with. -/
def log (c : Cache κ ν) : List (Op κ ν) → List (Op κ ν × Option ν)
  | [] => []
  | op :: ops => (op, (c.step op).1) :: (c.step op).2.log ops

/-- The key that an operation uses: one that is stored, or that is looked up and found. -/
def used? : Op κ ν × Option ν → Option κ
  | (.put k _, _) => some k
  | (.get k, some _) => some k
  | _ => none

/-- The value of a key that was stored last and is not cleared since then. -/
def latest? (k : κ) (ops : List (Op κ ν)) : Option (Option ν) :=
  ops.foldl (fun value op =>
    match op with
    | .put k' v => if k' = k then some v else value
    | .clear => none
    | .get _ => value) none

/-- The keys that were used since the last use of a key. -/
def usedSince (k : κ) (log : List (Op κ ν × Option ν)) : Finset κ :=
  ((log.rtakeWhile fun e => used? e ≠ some k).filterMap used?).toFinset

/-- The keys that were used since the last clearing, each at the place of its last use. -/
def recency (log : List (Op κ ν × Option ν)) : List κ :=
  log.foldl (fun ks e =>
    match e.1, used? e with
    | .clear, _ => []
    | _, some k => touch ks k
    | _, none => ks) []

theorem after_concat (c : Cache κ ν) (ops : List (Op κ ν)) (op : Op κ ν) :
    c.after (ops ++ [op]) = ((c.after ops).step op).2 := List.foldl_concat _ _ _ _

theorem log_concat (c : Cache κ ν) (ops : List (Op κ ν)) (op : Op κ ν) :
    c.log (ops ++ [op]) = c.log ops ++ [(op, ((c.after ops).step op).1)] := by
  induction ops generalizing c with
  | nil => rfl
  | cons first ops ih =>
    rw [List.cons_append, log, ih, log]
    rfl

section

variable {log : List (Op κ ν × Option ν)} {e : Op κ ν × Option ν} {k : κ}

theorem latest?_put (k k' : κ) (v : Option ν) (ops : List (Op κ ν)) :
    latest? k' (ops ++ [.put k v]) = if k = k' then some v else latest? k' ops := List.foldl_concat _ _ _ _

theorem latest?_get (k k' : κ) (ops : List (Op κ ν)) :
    latest? k' (ops ++ [.get k]) = latest? k' ops := List.foldl_concat _ _ _ _

theorem latest?_clear (k : κ) (ops : List (Op κ ν)) : latest? k (ops ++ [.clear]) = none :=
  List.foldl_concat _ _ _ _

theorem recency_of_used (h : used? e = some k) (log : List (Op κ ν × Option ν)) :
    recency (log ++ [e]) = touch (recency log) k := by
  rw [recency, List.foldl_concat]
  obtain ⟨op, answer⟩ := e
  cases op with
  | clear => cases h
  | get k' => simp only [h, recency]
  | put k' v => simp only [h, recency]

theorem recency_get (k : κ) (log : List (Op κ ν × Option ν)) :
    recency (log ++ [(.get k, none)]) = recency log := List.foldl_concat _ _ _ _

theorem recency_clear (log : List (Op κ ν × Option ν)) (answer : Option ν) :
    recency (log ++ [(.clear, answer)]) = [] := List.foldl_concat _ _ _ _

omit [DecidableEq κ] in
/-- An operation uses a key, or is a look-up that finds nothing, or clears. -/
theorem used?_cases (e : Op κ ν × Option ν) :
    (∃ k, used? e = some k) ∨ (∃ k, e = (.get k, none)) ∨ e.1 = .clear := by
  obtain ⟨op, answer⟩ := e
  cases op with
  | clear => exact Or.inr (Or.inr rfl)
  | put k v => exact Or.inl ⟨k, rfl⟩
  | get k =>
    cases answer with
    | none => exact Or.inr (Or.inl ⟨k, rfl⟩)
    | some v => exact Or.inl ⟨k, rfl⟩

theorem nodup_recency (log : List (Op κ ν × Option ν)) : (recency log).Nodup := by
  induction log using List.reverseRecOn with
  | nil => exact List.nodup_nil
  | append_singleton log e ih =>
    rcases used?_cases e with ⟨k, hk⟩ | ⟨k, rfl⟩ | hclear
    · rw [recency_of_used hk]
      exact nodup_touch ih k
    · rwa [recency_get]
    · obtain ⟨op, answer⟩ := e
      obtain rfl : op = .clear := hclear
      rw [recency_clear]
      exact List.nodup_nil

theorem usedSince_of_used_self (h : used? e = some k) (log : List (Op κ ν × Option ν)) :
    usedSince k (log ++ [e]) = ∅ := by
  rw [usedSince, List.rtakeWhile_concat_neg _ _ _ (by simp [h]), List.filterMap_nil,
    List.toFinset_nil]

theorem usedSince_of_used {k' : κ} (h : used? e = some k') (hne : k' ≠ k)
    (log : List (Op κ ν × Option ν)) :
    usedSince k (log ++ [e]) = insert k' (usedSince k log) := by
  have hother : used? e ≠ some k := by
    rw [h]
    exact fun hs => hne (Option.some.inj hs)
  rw [usedSince, List.rtakeWhile_concat_pos _ _ _ (by simpa using hother), List.filterMap_append,
    List.filterMap_cons_some h, List.filterMap_nil, List.toFinset_append, usedSince,
    Finset.insert_eq, Finset.union_comm, List.toFinset_cons, List.toFinset_nil, insert_empty_eq]

theorem usedSince_get (k k' : κ) (log : List (Op κ ν × Option ν)) :
    usedSince k (log ++ [(.get k', none)]) = usedSince k log := by
  have hunused : used? ((.get k', none) : Op κ ν × Option ν) = none := rfl
  rw [usedSince, List.rtakeWhile_concat_pos _ _ _ (by simp [hunused]), List.filterMap_append,
    List.filterMap_cons_none hunused, List.filterMap_nil, List.append_nil, usedSince]

/-- Behind a key stand exactly the keys that were used since its last use. -/
theorem exists_behind (h : k ∈ recency log) : ∃ before behind,
    recency log = before ++ k :: behind ∧ behind.toFinset = usedSince k log := by
  induction log using List.reverseRecOn with
  | nil => cases h
  | append_singleton log e ih =>
    rcases used?_cases e with ⟨k', hk'⟩ | ⟨k', rfl⟩ | hclear
    · rw [recency_of_used hk'] at h ⊢
      by_cases he : k' = k
      · -- the key itself is used, and goes to the end
        subst he
        exact ⟨(recency log).filter (· ≠ k'), [], rfl, (usedSince_of_used_self hk' log).symm⟩
      · -- another key goes to the end, from behind this one if it stood there
        obtain ⟨before, behind, hsplit, hbehind⟩ := ih ((mem_touch.mp h).resolve_left (Ne.symm he))
        refine ⟨before.filter (· ≠ k'), behind.filter (· ≠ k') ++ [k'], ?_, ?_⟩
        · rw [hsplit, touch, List.filter_append, List.filter_cons_of_pos (by simpa using Ne.symm he),
            List.append_assoc, List.cons_append]
        · rw [usedSince_of_used hk' he, ← hbehind]
          ext x
          by_cases hx : x = k' <;> simp [hx]
    · rw [recency_get] at h ⊢
      obtain ⟨before, behind, hsplit, hbehind⟩ := ih h
      exact ⟨before, behind, hsplit, hbehind.trans (usedSince_get k k' log).symm⟩
    · obtain ⟨op, answer⟩ := e
      obtain rfl : op = .clear := hclear
      rw [recency_clear] at h
      cases h

/-- A key that has a value was used since the last clearing. -/
theorem mem_recency_of_latest? {v : Option ν} (h : latest? k (log.map Prod.fst) = some v) :
    k ∈ recency log := by
  induction log using List.reverseRecOn with
  | nil => cases h
  | append_singleton log e ih =>
    rw [List.map_append, List.map_singleton] at h
    obtain ⟨op, answer⟩ := e
    cases op with
    | clear =>
      rw [latest?_clear] at h
      cases h
    | put k' v' =>
      rw [latest?_put] at h
      rw [recency_of_used (k := k') rfl]
      by_cases he : k' = k
      · exact mem_touch.mpr (Or.inl he.symm)
      · rw [if_neg he] at h
        exact mem_touch.mpr (Or.inr (ih h))
    | get k' =>
      rw [latest?_get] at h
      cases answer with
      | none =>
        rw [recency_get]
        exact ih h
      | some v' =>
        rw [recency_of_used (k := k') rfl]
        exact mem_touch.mpr (Or.inr (ih h))

end

end Cache

end TierHost
