import TierHost.Proofs.Lint.Reports
import TierHost.Proofs.Lint.Selected
import TierHost.Proofs.Text.Order
import Mathlib.Algebra.BigOperators.Group.Finset.Piecewise
import Mathlib.Algebra.BigOperators.Ring.List
import Mathlib.Algebra.Ring.Nat
import Mathlib.Algebra.Order.BigOperators.Group.Finset

/-!
Merged results. All diagnostics are joined, but within one document a name that is selected again puts
its block in the place of the first one, so that the blocks account for every diagnostic unless an
analyzer with findings is selected more than once.
-/

namespace TierHost

namespace Results

variable {r : Results}

/-- The diagnostics that are kept under a name, which are none for a name without an entry. -/
def blockOf (r : Results) (name : String) : List Diagnostic := (r.byAnalyzer.get? name).getD []

theorem getD_get?_extendBlock (l : Listing String (List Diagnostic))
    (e : String × List Diagnostic) (name : String) :
    ((extendBlock l e).get? name).getD [] =
      (l.get? name).getD [] ++ if e.1 = name then e.2 else [] := by
  rw [extendBlock, Listing.get?_put]
  by_cases he : e.1 = name
  · rw [if_pos he, if_pos he, he, Option.getD_some]
  · rw [if_neg he, if_neg he, List.append_nil]

/-- Every name's block is made longer by that of the other dictionary. -/
theorem getD_get?_foldl_extendBlock {blocks : Listing String (List Diagnostic)}
    (h : blocks.keys.Nodup) (l : Listing String (List Diagnostic)) (name : String) :
    ((blocks.foldl extendBlock l).get? name).getD [] =
      (l.get? name).getD [] ++ (blocks.get? name).getD [] := by
  induction blocks generalizing l with
  | nil => exact (List.append_nil _).symm
  | cons e blocks ih =>
    rw [Listing.keys_cons, List.nodup_cons] at h
    rw [List.foldl_cons, ih h.2, getD_get?_extendBlock, List.append_assoc, Listing.get?_cons]
    by_cases he : e.1 = name
    · have hnone : Listing.get? blocks name = none := Listing.get?_eq_none (he ▸ h.1)
      rw [if_pos he, if_pos he, hnone, Option.getD_none, List.append_nil, Option.getD_some]
    · rw [if_neg he, if_neg he, List.nil_append]

/-- What merging results one after another into others makes of their parts. -/
theorem foldl_merge {parts : List Results} (h : ∀ p ∈ parts, p.byAnalyzer.keys.Nodup)
    (r : Results) :
    (parts.foldl merge r).diagnostics = r.diagnostics ++ parts.flatMap (·.diagnostics) ∧
      (∀ names, r.analyzers = names.eraseDups →
        (parts.foldl merge r).analyzers = (names ++ parts.flatMap (·.analyzers)).eraseDups) ∧
      ∀ name, (parts.foldl merge r).blockOf name =
        r.blockOf name ++ parts.flatMap (·.blockOf name) := by
  induction parts generalizing r with
  | nil => exact ⟨(List.append_nil _).symm, fun names hn => by simpa using hn, by simp⟩
  | cons p parts ih =>
    obtain ⟨hdiagnostics, hanalyzers, hblocks⟩ :=
      ih (fun q hq => h q (List.mem_cons_of_mem p hq)) (r.merge p)
    rw [List.foldl_cons]
    refine ⟨?_, ?_, ?_⟩
    · rw [hdiagnostics, merge, List.append_assoc, List.flatMap_cons]
    · intro names hn
      have hstep : (r.merge p).analyzers = (names ++ p.analyzers).eraseDups := by
        rw [merge]
        dsimp only
        rw [hn, Text.foldl_append_new]
      rw [hanalyzers _ hstep, List.append_assoc, List.flatMap_cons]
    · intro name
      have hstep : (r.merge p).blockOf name = r.blockOf name ++ p.blockOf name :=
        getD_get?_foldl_extendBlock (h p List.mem_cons_self) r.byAnalyzer name
      rw [hblocks, hstep, List.append_assoc, List.flatMap_cons]

end Results

namespace Linter

open Work

variable {l : Linter} {selection : Option (List String)} {a : Analyzer} {doc : Document}

theorem nodup_foldl_withBlock (block : Analyzer → List Diagnostic) (as : List Analyzer)
    {r : Results} (h : r.byAnalyzer.keys.Nodup) :
    (as.foldl (withBlock block) r).byAnalyzer.keys.Nodup := by
  induction as generalizing r with
  | nil => exact h
  | cons b as ih => exact ih (Listing.nodup_keys_put h b.name (block b))

/-- The block that is kept for an analyzer is its own, however often it ran: once it is there, it is
replaced only by itself. -/
theorem blockOf_foldl_withBlock {block : Analyzer → List Diagnostic} {as : List Analyzer}
    (h : ∀ b ∈ as, b.name = a.name → b = a) {r : Results}
    (hr : a ∈ as ∨ r.blockOf a.name = block a) :
    (as.foldl (withBlock block) r).blockOf a.name = block a := by
  induction as generalizing r with
  | nil => exact hr.resolve_left List.not_mem_nil
  | cons b as ih =>
    have hput : (withBlock block r b).blockOf a.name =
        if b.name = a.name then block b else r.blockOf a.name := by
      rw [Results.blockOf, withBlock, Results.addBlock, Listing.get?_put]
      by_cases hname : b.name = a.name
      · rw [if_pos hname, if_pos hname, Option.getD_some]
      · rw [if_neg hname, if_neg hname, Results.blockOf]
    apply ih fun c hc => h c (List.mem_cons_of_mem b hc)
    by_cases hname : b.name = a.name
    · right
      rw [hput, if_pos hname, h b List.mem_cons_self hname]
    · rcases hr with hmem | hkept
      · rcases List.mem_cons.mp hmem with rfl | hmem
        · exact absurd rfl hname
        · exact Or.inl hmem
      · right
        rw [hput, if_neg hname, hkept]

/-- What a run without cancellation makes of a document. -/
def partialResults (l : Linter) (selection : Option (List String)) (doc : Document) : Results :=
  (l.running selection).foldl (withBlock (l.block doc)) .empty

/-- What running over documents without cancellation makes of them. -/
def totalResults (l : Linter) (selection : Option (List String)) (docs : List Document) : Results :=
  (docs.map (l.partialResults selection)).foldl Results.merge .empty

variable {inert : Prop} {docs : List Document}

theorem gives_runAll (hresolved : ∀ a ∈ l.selected selection, a.Resolved l.options)
    (hacts : ∀ doc ∈ docs, ∀ a ∈ l.selected selection, ∀ act ∈ a.actsIn doc,
      act.Uncanceling inert) :
    Gives inert (l.runAll selection docs) (l.totalResults selection docs) := by
  rw [totalResults, List.foldl_map]
  apply gives_foldlM
  intro r doc hdoc
  exact (gives_run hresolved (hacts doc hdoc)).bind (gives_pure _)

theorem diagnostics_partialResults :
    (l.partialResults selection doc).diagnostics =
      (l.running selection).flatMap (l.block doc) :=
  (foldl_withBlock (l.block doc) (l.running selection) .empty).1

theorem analyzers_partialResults :
    (l.partialResults selection doc).analyzers = (l.running selection).map (·.name) :=
  (foldl_withBlock (l.block doc) (l.running selection) .empty).2

theorem totalResults_eq :
    (l.totalResults selection docs).diagnostics =
        docs.flatMap (fun doc => (l.partialResults selection doc).diagnostics) ∧
      (l.totalResults selection docs).analyzers =
        (docs.flatMap fun doc => (l.partialResults selection doc).analyzers).eraseDups ∧
      ∀ name, (l.totalResults selection docs).blockOf name =
        docs.flatMap fun doc => (l.partialResults selection doc).blockOf name := by
  have hkeys : ∀ p ∈ docs.map (l.partialResults selection), p.byAnalyzer.keys.Nodup := by
    intro p hp
    obtain ⟨doc, -, rfl⟩ := List.mem_map.mp hp
    exact nodup_foldl_withBlock _ _ List.nodup_nil
  obtain ⟨hdiagnostics, hanalyzers, hblocks⟩ := Results.foldl_merge hkeys .empty
  simp only [List.flatMap_map] at hdiagnostics hanalyzers hblocks
  exact ⟨hdiagnostics, hanalyzers [] rfl, hblocks⟩

/-- Every diagnostic in an analyzer's block names the analyzer. -/
theorem analyzer_of_mem_block {d : Diagnostic} (h : d ∈ l.block doc a) : d.analyzer = a.name := by
  rcases Analyzer.cases_of_mem_findings (List.mem_of_mem_filter h) with
    ⟨d', severity, -, rfl⟩ | ⟨kind, message, rfl⟩
  · rfl
  · rfl

/-- All diagnostics of an analyzer: its blocks, each as often as it was selected. -/
theorem filter_diagnostics (h : l.registry.Keyed) (ha : a ∈ l.running selection) :
    ((l.totalResults selection docs).diagnostics.filter fun d => d.analyzer = a.name) =
      docs.flatMap fun doc =>
        (List.replicate (timesSelected selection a.name) a).flatMap (l.block doc) := by
  have hblock (doc : Document) (b : Analyzer) :
      ((l.block doc b).filter fun d => d.analyzer = a.name) =
        if b.name = a.name then l.block doc b else [] := by
    by_cases hname : b.name = a.name
    · rw [if_pos hname, List.filter_eq_self]
      intro d hd
      exact decide_eq_true ((analyzer_of_mem_block hd).trans hname)
    · rw [if_neg hname, List.filter_eq_nil_iff]
      intro d hd he
      exact hname ((analyzer_of_mem_block hd).symm.trans (of_decide_eq_true he))
  have hrunning (doc : Document) (as : List Analyzer) :
      ((as.flatMap (l.block doc)).filter fun d => d.analyzer = a.name) =
        (as.filter fun b => b.name = a.name).flatMap (l.block doc) := by
    induction as with
    | nil => rfl
    | cons b as ih =>
      rw [List.flatMap_cons, List.filter_append, ih, hblock, List.filter_cons]
      by_cases hname : b.name = a.name
      · simp [hname]
      · simp [hname]
  rw [totalResults_eq.1, List.filter_flatMap]
  simp only [diagnostics_partialResults, hrunning, filter_running h ha]

theorem blockOf_totalResults (h : l.registry.Keyed) (ha : a ∈ l.running selection) :
    (l.totalResults selection docs).blockOf a.name = docs.flatMap fun doc => l.block doc a := by
  have hselected {b : Analyzer} (hb : b ∈ l.running selection) : b ∈ l.selected selection :=
    List.mem_of_mem_filter hb
  have hblock (doc : Document) :
      (l.partialResults selection doc).blockOf a.name = l.block doc a := by
    apply blockOf_foldl_withBlock _ (Or.inl ha)
    intro b hb hname
    exact eq_of_name h (hselected hb) (hselected ha) hname
  rw [totalResults_eq.2.2]
  simp only [hblock]

theorem exists_running_of_mem {name : String}
    (h : name ∈ (l.totalResults selection docs).analyzers) :
    ∃ a ∈ l.running selection, a.name = name := by
  rw [totalResults_eq.2.1, List.mem_eraseDups] at h
  obtain ⟨doc, -, hname⟩ := List.mem_flatMap.mp h
  rw [analyzers_partialResults] at hname
  exact List.mem_map.mp hname

/-- Every diagnostic is of one of the analyzers. -/
theorem analyzer_mem_analyzers {d : Diagnostic}
    (h : d ∈ (l.totalResults selection docs).diagnostics) :
    d.analyzer ∈ (l.totalResults selection docs).analyzers := by
  rw [totalResults_eq.1] at h
  obtain ⟨doc, hdoc, hd⟩ := List.mem_flatMap.mp h
  rw [diagnostics_partialResults] at hd
  obtain ⟨a, ha, hd⟩ := List.mem_flatMap.mp hd
  rw [totalResults_eq.2.1, List.mem_eraseDups, analyzer_of_mem_block hd]
  refine List.mem_flatMap.mpr ⟨doc, hdoc, ?_⟩
  rw [analyzers_partialResults]
  exact List.mem_map_of_mem ha

theorem length_filter_diagnostics (h : l.registry.Keyed) (ha : a ∈ l.running selection) :
    ((l.totalResults selection docs).diagnostics.filter fun d => d.analyzer = a.name).length =
      timesSelected selection a.name * (l.totalResults selection docs).countOf a.name := by
  have hcount : (l.totalResults selection docs).countOf a.name =
      (docs.flatMap fun doc => l.block doc a).length :=
    congrArg List.length (blockOf_totalResults h ha)
  have hreplicate (n : Nat) (doc : Document) :
      ((List.replicate n a).flatMap (l.block doc)).length = n * (l.block doc a).length := by
    rw [List.length_flatMap, List.map_replicate, List.sum_replicate_nat]
  rw [filter_diagnostics h ha, hcount, List.length_flatMap, List.length_flatMap]
  simp only [hreplicate]
  exact List.sum_map_mul_left _ _ _

theorem countOf_eq_length_iff (h : l.registry.Keyed) (ha : a ∈ l.running selection) :
    (l.totalResults selection docs).countOf a.name =
        ((l.totalResults selection docs).diagnostics.filter fun d => d.analyzer = a.name).length ↔
      (l.totalResults selection docs).countOf a.name = 0 ∨ timesSelected selection a.name = 1 := by
  rw [length_filter_diagnostics h ha]
  constructor
  · intro he
    rcases Nat.eq_zero_or_pos ((l.totalResults selection docs).countOf a.name) with hzero | hpos
    · exact Or.inl hzero
    · right
      apply Nat.eq_of_mul_eq_mul_right hpos
      rw [Nat.one_mul]
      exact he.symm
  · rintro (hzero | hone)
    · rw [hzero, Nat.mul_zero]
    · rw [hone, Nat.one_mul]

/-- A block is all that there is of a name exactly when the name was selected once, or has no
findings. -/
theorem blockOf_eq_filter_iff (h : l.registry.Keyed) (ha : a ∈ l.running selection) :
    (l.totalResults selection docs).blockOf a.name =
        ((l.totalResults selection docs).diagnostics.filter fun d => d.analyzer = a.name) ↔
      (l.totalResults selection docs).countOf a.name = 0 ∨ timesSelected selection a.name = 1 := by
  rw [← countOf_eq_length_iff h ha]
  constructor
  · exact congrArg List.length
  · intro hcount
    rcases (countOf_eq_length_iff h ha).mp hcount with hzero | hone
    · rw [hzero] at hcount
      rw [List.eq_nil_of_length_eq_zero hcount.symm]
      exact List.eq_nil_of_length_eq_zero hzero
    · rw [filter_diagnostics h ha, blockOf_totalResults h ha, hone]
      simp only [List.replicate_one, List.flatMap_singleton]

/-- The diagnostics of all names add up, if each diagnostic is of one of them. -/
theorem sum_length_filter {names : Finset String} {ds : List Diagnostic}
    (h : ∀ d ∈ ds, d.analyzer ∈ names) :
    ∑ name ∈ names, (ds.filter fun d => d.analyzer = name).length = ds.length := by
  induction ds with
  | nil => simp
  | cons d ds ih =>
    have hone : ∑ name ∈ names, (if d.analyzer = name then 1 else 0) = 1 := by
      rw [Finset.sum_ite_eq, if_pos (h d List.mem_cons_self)]
    have hcons (name : String) : ((d :: ds).filter fun d => d.analyzer = name).length =
        (ds.filter fun d => d.analyzer = name).length + if d.analyzer = name then 1 else 0 := by
      rw [List.filter_cons]
      by_cases hname : d.analyzer = name
      · simp [hname]
      · simp [hname]
    calc ∑ name ∈ names, ((d :: ds).filter fun d => d.analyzer = name).length
        = ∑ name ∈ names, ((ds.filter fun d => d.analyzer = name).length +
            if d.analyzer = name then 1 else 0) := Finset.sum_congr rfl fun name _ => hcons name
      _ = ds.length + 1 := by
          rw [Finset.sum_add_distrib, hone, ih fun d' hd => h d' (List.mem_cons_of_mem d hd)]
      _ = (d :: ds).length := rfl

/-- The counts of the blocks add up to all diagnostics exactly when none falls short, since none is too
large. -/
theorem sum_countOf_eq_iff (h : l.registry.Keyed) :
    ((l.totalResults selection docs).analyzers.map
        (l.totalResults selection docs).countOf).sum =
          (l.totalResults selection docs).diagnostics.length ↔
      ∀ name ∈ (l.totalResults selection docs).analyzers,
        (l.totalResults selection docs).countOf name =
          ((l.totalResults selection docs).diagnostics.filter fun d => d.analyzer = name).length := by
  have hnodup : (l.totalResults selection docs).analyzers.Nodup := by
    rw [totalResults_eq.2.1]
    exact Text.nodup_eraseDups _
  have hle : ∀ name ∈ (l.totalResults selection docs).analyzers.toFinset,
      (l.totalResults selection docs).countOf name ≤
        ((l.totalResults selection docs).diagnostics.filter fun d => d.analyzer = name).length := by
    intro name hname
    obtain ⟨a, ha, rfl⟩ := exists_running_of_mem (List.mem_toFinset.mp hname)
    -- what ran was selected, so that its block counts at least once
    have hpos : 0 < timesSelected selection a.name := by
      rw [← count_running h ha]
      exact List.count_pos_iff.mpr (List.mem_map_of_mem ha)
    rw [length_filter_diagnostics h ha]
    exact Nat.le_mul_of_pos_left _ hpos
  have hmem : ∀ d ∈ (l.totalResults selection docs).diagnostics,
      d.analyzer ∈ (l.totalResults selection docs).analyzers.toFinset := fun d hd =>
    List.mem_toFinset.mpr (analyzer_mem_analyzers hd)
  rw [← List.sum_toFinset _ hnodup, ← sum_length_filter hmem, Finset.sum_eq_sum_iff_of_le hle]
  simp only [List.mem_toFinset]

/-- Running over documents without cancellation joins what the runs over the single documents yield: the
diagnostics in order, and the names without repetitions. The diagnostics of a name are as many as its
block times how often it was selected, so that the blocks account for all diagnostics exactly when no
name with findings was selected more than once. -/
theorem runAll_accounts {l : Linter} {selection : Option (List String)} {docs : List Document}
    {s : Session} (hs : s.Quiet) (hoptions : l.options.Recognised)
    (hregistry : l.registry.Reachable)
    (hacts : ∀ doc ∈ docs, ∀ a ∈ l.selected selection, ∀ act ∈ a.actsIn doc,
      act.Uncanceling s.Inert) :
    ∃ results runs, ((l.runAll selection docs).runIn s).1 = .ok results ∧
      List.Forall₂ (fun doc r => ((l.run selection doc).runIn s).1 = .ok r) docs runs ∧
      results.diagnostics = runs.flatMap (·.diagnostics) ∧
      results.analyzers = (runs.flatMap (·.analyzers)).eraseDups ∧
      (∀ name ∈ results.analyzers,
        (results.diagnostics.filter fun d => d.analyzer = name).length =
            timesSelected selection name * results.countOf name ∧
          (results.blockOf name = (results.diagnostics.filter fun d => d.analyzer = name) ↔
            results.countOf name = 0 ∨ timesSelected selection name = 1)) ∧
      ((results.analyzers.map results.countOf).sum = results.diagnostics.length ↔
        ∀ name ∈ results.analyzers,
          results.countOf name = 0 ∨ timesSelected selection name = 1) := by
  have hkeyed := hregistry.keyed
  have hresolved : ∀ a ∈ l.selected selection, a.Resolved l.options := fun a _ =>
    Analyzer.resolved_of_recognised hoptions a
  -- every document is also run over by itself from the session at the start
  have hcalm : s.Calm s.Inert := ⟨hs, id⟩
  obtain ⟨s', hrun, -⟩ := gives_runAll hresolved hacts s hcalm
  let results := l.totalResults selection docs
  let runs := docs.map (l.partialResults selection)
  have hruns : List.Forall₂ (fun doc r => ((l.run selection doc).runIn s).1 = .ok r) docs runs := by
    rw [List.forall₂_map_right_iff, List.forall₂_same]
    intro doc hdoc
    obtain ⟨s'', hrun', -⟩ := gives_run hresolved (hacts doc hdoc) s hcalm
    exact congrArg Prod.fst hrun'
  refine ⟨results, runs, congrArg Prod.fst hrun, hruns, ?_, ?_, ?_, ?_⟩
  · rw [List.flatMap_map]
    exact totalResults_eq.1
  · rw [List.flatMap_map]
    exact totalResults_eq.2.1
  · intro name hname
    obtain ⟨a, ha, rfl⟩ := exists_running_of_mem hname
    exact ⟨length_filter_diagnostics hkeyed ha, blockOf_eq_filter_iff hkeyed ha⟩
  · rw [sum_countOf_eq_iff hkeyed]
    refine forall₂_congr ?_
    intro name hname
    obtain ⟨a, ha, rfl⟩ := exists_running_of_mem hname
    exact countOf_eq_length_iff hkeyed ha

/-- A host that knows the analyzer of event accessors and has its rule switched on. -/
def eventLinter : Linter where
  registry := ⟨[(EventOrder.analyzer.name, EventOrder.analyzer)], []⟩
  suppressions := []
  options := [("SA1213", "warning")]

theorem eventLinter_reachable : eventLinter.registry.Reachable :=
  .register (a := EventOrder.analyzer) .empty rfl

theorem eventLinter_recognised : eventLinter.options.Recognised :=
  SeverityOptions.recognised_singleton (Or.inr (by decide))

theorem eventLinter_uncanceling (selection : Option (List String)) (docs : List Document) :
    ∀ doc ∈ docs, ∀ a ∈ eventLinter.selected selection, ∀ act ∈ a.actsIn doc,
      act.Uncanceling (Session.start none).Inert := by
  intro doc _ a ha act hact
  have hget := get?_of_selected eventLinter_reachable.keyed ha
  have hmem : (a.name, a) ∈ [(EventOrder.analyzer.name, EventOrder.analyzer)] :=
    Listing.mem_of_get? hget
  obtain rfl := (Prod.mk.inj (List.mem_singleton.mp hmem)).2
  rw [EventOrder.actsIn_analyzer] at hact
  obtain ⟨place, -, rfl⟩ := List.mem_map.mp hact
  exact trivial

/-- Without a selection the counts of two documents add up. -/
theorem runAll_accounts_clocks :
    (Session.start none).Quiet ∧ eventLinter.options.Recognised ∧ eventLinter.registry.Reachable ∧
      ∃ results,
        ((eventLinter.runAll none [clockDocument, clockDocument]).runIn (.start none)).1 =
          .ok results ∧
        (results.analyzers.map results.countOf).sum = results.diagnostics.length := by
  have hquiet : (Session.start none).Quiet := Session.quiet_of_token rfl
  obtain ⟨results, runs, hrun, -, -, -, -, hsum⟩ := runAll_accounts hquiet eventLinter_recognised
    eventLinter_reachable (eventLinter_uncanceling none [clockDocument, clockDocument])
  refine ⟨hquiet, eventLinter_recognised, eventLinter_reachable, results, hrun, hsum.mpr ?_⟩
  exact fun name _ => Or.inr rfl

/-- An analyzer that is selected twice reports twice, but one report is missing from its block. -/
theorem not_always_accounted :
    (Session.start none).Quiet ∧ eventLinter.options.Recognised ∧ eventLinter.registry.Reachable ∧
      ∃ results,
        ((eventLinter.runAll (some [EventOrder.analyzer.name, EventOrder.analyzer.name])
          [clockDocument]).runIn (.start none)).1 = .ok results ∧
        results.analyzers = [EventOrder.analyzer.name] ∧ results.diagnostics.length = 2 ∧
        (results.analyzers.map results.countOf).sum = 1 ∧
        results.blockOf EventOrder.analyzer.name ≠
          results.diagnostics.filter fun d => d.analyzer = EventOrder.analyzer.name := by
  have hquiet : (Session.start none).Quiet := Session.quiet_of_token rfl
  have hresolved : ∀ a ∈ eventLinter.selected
      (some [EventOrder.analyzer.name, EventOrder.analyzer.name]), a.Resolved eventLinter.options :=
    fun a _ => Analyzer.resolved_of_recognised eventLinter_recognised a
  obtain ⟨s', hrun, -⟩ := gives_runAll hresolved (eventLinter_uncanceling _ [clockDocument])
    (.start none) ⟨hquiet, id⟩
  exact ⟨hquiet, eventLinter_recognised, eventLinter_reachable, _, congrArg Prod.fst hrun,
    by decide, by decide, by decide, by decide⟩

end Linter

end TierHost
