import TierHost.Proofs.Lint.FixAll
import Mathlib.Algebra.Order.BigOperators.Group.List
import Mathlib.Algebra.Order.Group.Nat

/-!
One fix of an event in the wrong order. It takes away one report at the diagnostic's location and nothing
else, and there is nothing left for it to do afterwards, since every report is at a remove accessor of its
own.
-/

namespace TierHost.EventOrder

open Node Linter Work
open scoped List

variable {place : Location}

/-- The locations of the remove accessors below a node. -/
def removalsBelow (n : Node) : List Location := n.children.flatMap removals

theorem removals_eq (n : Node) :
    removals n = (if n.kind = .removeAccessor then [n.location] else []) ++ removalsBelow n := by
  have hbelow : removalsBelow n =
      ((n.children.flatMap walk).filter fun m => m.kind = .removeAccessor).map (·.location) := by
    rw [List.filter_flatMap, List.map_flatMap]
    rfl
  rw [hbelow, removals, walk_eq, List.filter_cons]
  by_cases hkind : n.kind = .removeAccessor
  · rw [if_pos hkind, if_pos (decide_eq_true hkind)]
    rfl
  · rw [if_neg hkind, if_neg (by simpa using hkind)]
    rfl

theorem count_removalsBelow_le (n : Node) :
    (removalsBelow n).count place ≤ (removals n).count place := by
  rw [removals_eq, List.count_append]
  exact Nat.le_add_left _ _

theorem count_flatMap_le {α : Type} {f g : α → List Location} {as : List α}
    (h : ∀ a ∈ as, (f a).count place ≤ (g a).count place) :
    (as.flatMap f).count place ≤ (as.flatMap g).count place := by
  rw [List.count_flatMap, List.count_flatMap]
  exact List.sum_le_sum h

/-- The report of an event and those in its accessor list are at remove accessors of that list, if those
in the two accessors are at remove accessors below them. -/
theorem Misordered.count_le {n list remove add : Node} {before after : List Node}
    (hm : Misordered n list remove add before after)
    (hremove : (reported remove).count place ≤ (removalsBelow remove).count place)
    (hadd : (reported add).count place ≤ (removalsBelow add).count place) :
    (remove.location :: reported list).count place ≤ (removals list).count place := by
  have hreported : reported list = reported remove ++ reported add := by
    have hnone : reported? list = none := by
      refine if_neg ?_
      rw [hm.kind]
      decide
    rw [reported_eq, hnone, hm.accessors, List.flatMap_cons, List.flatMap_singleton]
    rfl
  have hremovals : removals list = remove.location :: removalsBelow remove ++ removals add := by
    have hkind : ¬ list.kind = .removeAccessor := by
      rw [hm.kind]
      decide
    rw [removals_eq, if_neg hkind, removalsBelow, hm.accessors, List.flatMap_cons,
      List.flatMap_singleton, removals_eq remove, if_pos hm.remove]
    rfl
  have hbelow : (removalsBelow add).count place ≤ (removals add).count place :=
    count_removalsBelow_le add
  rw [hreported, hremovals, List.cons_append, List.count_cons, List.count_cons, List.count_append,
    List.count_append]
  omega

/-- Every report in a tree is at a remove accessor of its own, which stands below the root. -/
theorem count_reported_le (n : Node) :
    (reported n).count place ≤ (removalsBelow n).count place := by
  -- an event is reported at a node two levels below, so the statement is carried for the children too
  suffices h : (reported n).count place ≤ (removalsBelow n).count place ∧
      ∀ child ∈ n.children, (reported child).count place ≤ (removalsBelow child).count place from h.1
  induction n using Node.induction with
  | node n ih =>
    have hchildren : ∀ child ∈ n.children,
        (reported child).count place ≤ (removals child).count place := fun child hchild =>
      (ih child hchild).1.trans (count_removalsBelow_le child)
    refine ⟨?_, fun child hchild => (ih child hchild).1⟩
    rw [reported_eq]
    cases hn : reported? n with
    | none => exact count_flatMap_le hchildren
    | some place' =>
      obtain ⟨-, list, remove, add, before, after, hm, rfl⟩ := reported?_eq_some_iff.mp hn
      rw [removalsBelow]
      rw [hm.children] at hchildren ih ⊢
      have hbelow := (ih list (List.mem_append_right _ List.mem_cons_self)).2
      rw [hm.accessors] at hbelow
      have hlist := hm.count_le (hbelow remove List.mem_cons_self)
        (hbelow add (List.mem_cons_of_mem _ List.mem_cons_self))
      have hbefore : (before.flatMap reported).count place ≤ (before.flatMap removals).count place :=
        count_flatMap_le fun child hchild => hchildren child (List.mem_append_left _ hchild)
      have hafter : (after.flatMap reported).count place ≤ (after.flatMap removals).count place :=
        count_flatMap_le fun child hchild =>
          hchildren child (List.mem_append_right _ (List.mem_cons_of_mem _ hchild))
      simp only [List.flatMap_append, List.flatMap_cons, List.count_append, Option.toList_some,
        List.count_cons, List.count_nil] at hlist ⊢
      omega

/-- Where no other remove accessor has the location, the fix has nothing to do a second time. -/
theorem fixFor?_again {doc doc' : Document} {d : Diagnostic} (hids : doc.root.ids.Nodup)
    (hcount : (removals doc.root).count d.location ≤ 1) (h : fixFor? doc d = some doc') :
    fixFor? doc' d = none := by
  obtain ⟨-, hswaps, hids'⟩ := swaps_of_fixFor? hids h
  by_contra hagain
  obtain ⟨doc'', h'⟩ := Option.ne_none_iff_exists'.mp hagain
  obtain ⟨-, hswaps', -⟩ := swaps_of_fixFor? hids' h'
  -- the place would have been reported twice at first
  have htwice := (hswaps.reported_perm.trans (hswaps'.reported_perm.cons d.location)).count_eq d.location
  rw [List.count_cons_self, List.count_cons_self] at htwice
  have hreported : (reported doc.root).count d.location ≤ (removalsBelow doc.root).count d.location :=
    count_reported_le doc.root
  have hbelow : (removalsBelow doc.root).count d.location ≤ (removals doc.root).count d.location :=
    count_removalsBelow_le doc.root
  omega

variable {l : Linter} {selection : Option (List String)} {severity : Severity}

theorem map_location_diagnosticsOf (l : Linter) (severity : Severity) (doc : Document) :
    (diagnosticsOf l severity doc).map (·.location) =
      (reported doc.root).filter (visible l severity) := by
  rw [diagnosticsOf, List.map_map]
  exact List.map_id _

/-- The fix for a diagnostic leaves a document of distinct nodes as it is, or swaps the accessors of one
event that is reported at the diagnostic's location. Then the analyzer reports that location once less,
unless it is suppressed, and all others as before. The fix applies to each diagnostic of a run at whose
location there is no other remove accessor, and has nothing to do a second time. -/
theorem applyFix_swaps (hselected : l.selected selection = [analyzer])
    (hon : descriptor.severityUnder l.options = .ok (some severity)) {doc : Document}
    (hids : doc.root.ids.Nodup) (d : Diagnostic) :
    ∃ fixed, (∀ s, ((applyFix doc d : Work LintError (Option Document)).runIn s).1 = .ok fixed) ∧
      (∀ doc', fixed = some doc' →
        doc'.file = doc.file ∧ Swaps d.location doc.root doc'.root ∧ doc'.root.ids.Nodup ∧
        ∀ s : Session, s.Quiet → ∃ r r', ((l.run selection doc).runIn s).1 = .ok r ∧
          ((l.run selection doc').runIn s).1 = .ok r' ∧
          r.diagnostics.map (·.location) ~
            [d.location].filter (visible l severity) ++ r'.diagnostics.map (·.location)) ∧
      ∀ (s : Session) (r : Results), s.Quiet → ((l.run selection doc).runIn s).1 = .ok r →
        d ∈ r.diagnostics → (removals doc.root).count d.location ≤ 1 → ∃ doc', fixed = some doc' ∧
          ∀ s, ((applyFix doc' d : Work LintError (Option Document)).runIn s).1 = .ok none := by
  refine ⟨fixFor? doc d, runIn_applyFix doc d, ?_, ?_⟩
  · intro doc' h
    obtain ⟨hfile, hswaps, hids'⟩ := swaps_of_fixFor? hids h
    refine ⟨hfile, hswaps, hids', fun s hs => ?_⟩
    obtain ⟨r, hrun, hdiagnostics⟩ := exists_run hselected hon doc hs
    obtain ⟨r', hrun', hdiagnostics'⟩ := exists_run hselected hon doc' hs
    refine ⟨r, r', hrun, hrun', ?_⟩
    have hvisible := hswaps.reported_perm.filter (visible l severity)
    rw [hdiagnostics, hdiagnostics', map_location_diagnosticsOf, map_location_diagnosticsOf,
      ← List.filter_append]
    exact hvisible
  · intro s r hs hrun hd hcount
    obtain ⟨results, hresults, hdiagnostics⟩ := exists_run hselected hon doc hs
    rw [Except.ok.inj (hrun.symm.trans hresults), hdiagnostics] at hd
    obtain ⟨hid, hplace⟩ := mem_diagnosticsOf hd
    obtain ⟨doc', h⟩ := exists_fixFor? hcount hid (List.mem_of_mem_filter hplace)
    refine ⟨doc', h, fun s => ?_⟩
    rw [runIn_applyFix, fixFor?_again hids hcount h]

/-- The inner one of two events in the wrong order is fixed, which leaves the report of the outer one. -/
theorem applyFix_swaps_nested :
    eventLinter.selected none = [analyzer] ∧
      descriptor.severityUnder eventLinter.options = .ok (some .warning) ∧
      nestedDocument.root.ids.Nodup ∧
      ∃ doc', (∀ s, ((applyFix nestedDocument (diagnosticAt .warning ⟨"Clock.cs", 8, 17⟩) :
          Work LintError (Option Document)).runIn s).1 = .ok (some doc')) ∧
        (∀ s, ((applyFix doc' (diagnosticAt .warning ⟨"Clock.cs", 8, 17⟩) :
          Work LintError (Option Document)).runIn s).1 = .ok none) ∧
        Swaps ⟨"Clock.cs", 8, 17⟩ nestedDocument.root doc'.root ∧
        ∃ r', ((eventLinter.run none doc').runIn (.start none)).1 = .ok r' ∧
          r'.diagnostics.map (·.location) = [⟨"Clock.cs", 5, 9⟩] := by
  have hselected : eventLinter.selected none = [analyzer] := rfl
  have hon : descriptor.severityUnder eventLinter.options = .ok (some .warning) := by decide
  have hids := nodup_ids_nestedDocument
  have hquiet : (Session.start none).Quiet := Session.quiet_of_token rfl
  obtain ⟨fixed, hfixed, hswaps, hagain⟩ :=
    applyFix_swaps hselected hon hids (diagnosticAt .warning ⟨"Clock.cs", 8, 17⟩)
  obtain ⟨results, hrun, hdiagnostics⟩ := exists_run hselected hon nestedDocument hquiet
  rw [diagnosticsOf_nestedDocument] at hdiagnostics
  have hcount : (removals nestedDocument.root).count ⟨"Clock.cs", 8, 17⟩ ≤ 1 := by
    rw [removals, Node.walk_eq_preorder]
    decide
  have hmem : diagnosticAt .warning ⟨"Clock.cs", 8, 17⟩ ∈ results.diagnostics := by
    rw [hdiagnostics]
    exact List.mem_cons_of_mem _ List.mem_cons_self
  obtain ⟨doc', rfl, hnone⟩ := hagain _ results hquiet hrun hmem hcount
  obtain ⟨-, hswap, -, hreports⟩ := hswaps doc' rfl
  obtain ⟨r, r', hrun', hrun'', hperm⟩ := hreports _ hquiet
  refine ⟨hselected, hon, hids, doc', hfixed, hnone, hswap, r', hrun'', ?_⟩
  rw [Except.ok.inj (hrun'.symm.trans hrun), hdiagnostics] at hperm
  have hrest : [⟨"Clock.cs", 5, 9⟩] ~ r'.diagnostics.map (·.location) :=
    ((List.Perm.swap _ _ []).trans hperm).cons_inv
  exact List.perm_singleton.mp hrest.symm

end TierHost.EventOrder
