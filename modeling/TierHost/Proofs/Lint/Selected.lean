import TierHost.Proofs.Lint.Blocks

/-!
Registries and selections. A registry that came about by registering holds every analyzer under its own
name, so that a selection names the same analyzer as often as it holds the name.
-/

namespace TierHost

namespace Registry

/-- The registries that a host comes to, step by step from the empty one. -/
inductive Reachable : Registry → Prop
  | empty : Reachable .empty
  | register {r r' : Registry} {a : Analyzer} (before : r.Reachable) (done : r.register a = .ok r') :
      Reachable r'
  | unregister {r : Registry} (before : r.Reachable) (name : String) : Reachable (r.unregister name)
  | disable {r : Registry} (before : r.Reachable) (name : String) : Reachable (r.disable name)
  | enable {r : Registry} (before : r.Reachable) (name : String) : Reachable (r.enable name)

/-- Every name is registered once, and an analyzer under its own. -/
structure Keyed (r : Registry) : Prop where
  nodup : r.analyzers.keys.Nodup
  named : ∀ e ∈ r.analyzers, e.1 = e.2.name

theorem Keyed.register {r r' : Registry} {a : Analyzer} (h : r.Keyed)
    (done : r.register a = .ok r') : r'.Keyed := by
  rw [Registry.register] at done
  by_cases hrules : a.supported.isEmpty = true
  · rw [if_pos hrules] at done
    cases done
  · rw [if_neg hrules] at done
    cases done
    refine ⟨Listing.nodup_keys_put h.nodup a.name a, ?_⟩
    intro e he
    rcases Listing.mem_put he with rfl | he
    · rfl
    · exact h.named e he

theorem Keyed.unregister {r : Registry} (h : r.Keyed) (name : String) :
    (r.unregister name).Keyed := by
  refine ⟨Listing.nodup_keys_filter h.nodup _, ?_⟩
  intro e he
  exact h.named e (List.mem_of_mem_filter he)

theorem Reachable.keyed {r : Registry} (h : r.Reachable) : r.Keyed := by
  induction h with
  | empty => exact ⟨List.nodup_nil, fun e he => absurd he List.not_mem_nil⟩
  | register _ done ih => exact ih.register done
  | unregister _ name ih => exact ih.unregister name
  | disable _ _ ih => exact ⟨ih.nodup, ih.named⟩
  | enable _ _ ih => exact ⟨ih.nodup, ih.named⟩

theorem Keyed.name_of_get? {r : Registry} (h : r.Keyed) {name : String} {a : Analyzer}
    (ha : r.get? name = some a) : a.name = name := (h.named _ (Listing.mem_of_get? ha)).symm

theorem Keyed.map_enabled {r : Registry} (h : r.Keyed) :
    r.enabled.map (·.name) =
      Listing.keys (r.analyzers.filter fun e => !r.disabled.contains e.1) := by
  rw [enabled, Listing.values, Listing.keys, List.map_map]
  apply List.map_congr_left
  intro e he
  exact (h.named e (List.mem_of_mem_filter he)).symm

/-- What is switched on is what stands under its name, unless the name is switched off. -/
theorem Keyed.mem_enabled_iff {r : Registry} (h : r.Keyed) (a : Analyzer) :
    a ∈ r.enabled ↔ r.get? a.name = some a ∧ a.name ∉ r.disabled := by
  rw [enabled, Listing.values, List.mem_map]
  constructor
  · intro ha
    obtain ⟨⟨name, a'⟩, he, rfl⟩ := ha
    obtain ⟨hmem, hon⟩ := List.mem_filter.mp he
    obtain rfl : name = a'.name := h.named _ hmem
    exact ⟨Listing.get?_of_mem h.nodup hmem, by simpa using hon⟩
  · intro ha
    refine ⟨(a.name, a), List.mem_filter.mpr ⟨Listing.mem_of_get? ha.1, ?_⟩, rfl⟩
    simpa using ha.2

end Registry

namespace Linter

/-- How often a selection has the name; without one, every analyzer is taken once. -/
def timesSelected : Option (List String) → String → Nat
  | none, _ => 1
  | some names, name => names.count name

variable {l : Linter} {selection : Option (List String)} {a b : Analyzer}

theorem get?_of_selected (h : l.registry.Keyed) (ha : a ∈ l.selected selection) :
    l.registry.get? a.name = some a := by
  cases selection with
  | none => exact ((h.mem_enabled_iff a).mp ha).1
  | some names =>
    obtain ⟨name, -, hget⟩ := List.mem_filterMap.mp ha
    rw [h.name_of_get? hget]
    exact hget

/-- An analyzer of a selection is told by its name. -/
theorem eq_of_name (h : l.registry.Keyed) (ha : a ∈ l.selected selection)
    (hb : b ∈ l.selected selection) (hname : a.name = b.name) : a = b := by
  have hget := get?_of_selected h ha
  rw [hname, get?_of_selected h hb] at hget
  exact (Option.some.inj hget).symm

theorem count_named (h : l.registry.Keyed) (hget : l.registry.get? a.name = some a)
    (hon : a.isOn l.options = true) (names : List String) :
    (((names.filterMap l.registry.get?).filter fun b => b.isOn l.options).map (·.name)).count
      a.name = names.count a.name := by
  induction names with
  | nil => rfl
  | cons name names ih =>
    by_cases he : name = a.name
    · rw [he, List.filterMap_cons_some hget, List.filter_cons, if_pos hon, List.map_cons,
        List.count_cons_self, List.count_cons_self, ih]
    · rw [List.count_cons_of_ne he, ← ih]
      -- another name adds another analyzer, or none
      cases hname : l.registry.get? name with
      | none => rw [List.filterMap_cons_none hname]
      | some b =>
        have hb : b.name ≠ a.name := h.name_of_get? hname ▸ he
        rw [List.filterMap_cons_some hname, List.filter_cons]
        by_cases hbon : b.isOn l.options = true
        · rw [if_pos hbon, List.map_cons, List.count_cons_of_ne hb]
        · rw [if_neg hbon]

/-- An analyzer that is on runs as often as it was selected. -/
theorem count_running (h : l.registry.Keyed) (ha : a ∈ l.running selection) :
    ((l.running selection).map (·.name)).count a.name = timesSelected selection a.name := by
  obtain ⟨hselected, hon⟩ := List.mem_filter.mp ha
  cases selection with
  | none =>
    -- all that are switched on: every name once
    have henabled : (l.registry.enabled.map (·.name)).Nodup :=
      h.map_enabled ▸ Listing.nodup_keys_filter h.nodup _
    have hnodup : ((l.running none).map (·.name)).Nodup :=
      henabled.sublist (List.filter_sublist.map _)
    exact List.count_eq_one_of_mem hnodup (List.mem_map_of_mem ha)
  | some names => exact count_named h (get?_of_selected h hselected) hon names

/-- The running analyzers with a name are one analyzer, as often as it was selected. -/
theorem filter_running (h : l.registry.Keyed) (ha : a ∈ l.running selection) :
    ((l.running selection).filter fun b => b.name = a.name) =
      List.replicate (timesSelected selection a.name) a := by
  rw [← count_running h ha, List.count, List.countP_map, List.countP_eq_length_filter]
  apply List.eq_replicate_of_mem
  intro b hb
  obtain ⟨hrunning, hname⟩ := List.mem_filter.mp hb
  have hselected (c : Analyzer) (hc : c ∈ l.running selection) : c ∈ l.selected selection :=
    List.mem_of_mem_filter hc
  exact eq_of_name h (hselected b hrunning) (hselected a ha) (of_decide_eq_true hname)

end Linter

end TierHost
