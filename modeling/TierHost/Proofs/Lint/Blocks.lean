import TierHost.Lint.EventOrder
import TierHost.Proofs.Lint.Registered
import TierHost.Proofs.Lint.Severities
import TierHost.Proofs.Lint.Suppressed

/-!
What running analyzers yields: one block of diagnostics for each analyzer that is on, in the order of
the selection. A block is made of what its own analyzer does, whatever the others do.
-/

namespace TierHost

namespace Analyzer

variable (a : Analyzer) (options : SeverityOptions) (doc : Document)

/-- The analyzer does not start, or one of its acts raises something, as reporting a rule that it does
not support does. -/
def Fails : Prop := ∃ act ∈ a.actsIn doc, (act.raised? (a.rules options)).isSome

/-- What an analyzer finds in a document when nobody cancels: everything collected, or a single
diagnostic if it fails. -/
def findings : List Diagnostic :=
  match Linter.firstRaised? (a.rules options) (a.actsIn doc) with
  | none => Linter.collected a.name (a.rules options) (a.actsIn doc)
  | some (.failure kind message) => [Linter.failureDiagnostic a.name doc.file kind message]
  | some (.canceled _) => []

variable {a options doc}

theorem firstRaised?_eq_none_iff :
    Linter.firstRaised? (a.rules options) (a.actsIn doc) = none ↔ ¬ a.Fails options doc := by
  rw [Linter.firstRaised?, List.findSome?_eq_none_iff, Fails]
  push Not
  exact forall₂_congr fun act _ => Option.not_isSome_iff_eq_none.symm

theorem findings_of_not_fails (h : ¬ a.Fails options doc) :
    a.findings options doc = Linter.collected a.name (a.rules options) (a.actsIn doc) := by
  rw [findings, firstRaised?_eq_none_iff.mpr h]

/-- What is found is a report of a rule that is not off, or tells that the analyzer failed. -/
theorem cases_of_mem_findings {d : Diagnostic} (h : d ∈ a.findings options doc) :
    (∃ (d' : Diagnostic) (severity : Severity), a.rules options d'.id = some (some severity) ∧
      d = { d' with severity := some severity, analyzer := a.name }) ∨
    ∃ kind message, d = Linter.failureDiagnostic a.name doc.file kind message := by
  unfold findings at h
  split at h
  · obtain ⟨act, -, hact⟩ := List.mem_filterMap.mp h
    cases act with
    | report d' =>
      obtain ⟨severity, hrule, rfl⟩ := Option.map_eq_some_iff.mp hact
      exact Or.inl ⟨d', severity, Option.join_eq_some_iff.mp hrule, rfl⟩
    | raise r => cases hact
    | cancel => cases hact
  next kind message _ => exact Or.inr ⟨kind, message, List.mem_singleton.mp h⟩
  · cases h

/-- What an analyzer does that registers actions one after another and raises what registering raises. -/
theorem actsIn_of_registerAll {regs : List (Action × List Kind)}
    (hstart : a.start = (Actions.registerAll regs).mapError (Raised.failure "ValueError"))
    (h : ∀ reg ∈ regs, reg.2 ≠ []) :
    a.actsIn doc = doc.root.preorder.flatMap fun node => regs.flatMap fun reg =>
      (List.replicate (reg.2.count node.kind) reg.1).flatMap fun action => action doc node := by
  obtain ⟨actions, hactions, hof⟩ := Actions.exists_registerAll h
  rw [hactions] at hstart
  simp only [actsIn, hstart, Except.mapError, hof, List.flatMap_assoc]

/-- An analyzer that registers an action for no kind at all fails. -/
theorem fails_of_registerAll {regs : List (Action × List Kind)}
    (hstart : a.start = (Actions.registerAll regs).mapError (Raised.failure "ValueError"))
    (h : ∃ reg ∈ regs, reg.2 = []) : a.Fails options doc := by
  rw [Actions.registerAll_eq_error h] at hstart
  refine ⟨.raise (.failure "ValueError" Actions.noKinds), ?_, rfl⟩
  rw [actsIn, hstart]
  exact List.mem_singleton_self _

/-- An analyzer that fails, and cancels nothing, is answered with a single diagnostic. -/
theorem exists_findings_of_fails {inert : Prop} (h : a.Fails options doc)
    (hacts : ∀ act ∈ a.actsIn doc, act.Uncanceling inert) :
    ∃ kind message,
      Linter.firstRaised? (a.rules options) (a.actsIn doc) = some (.failure kind message) ∧
      a.findings options doc = [Linter.failureDiagnostic a.name doc.file kind message] := by
  have hsome : Linter.firstRaised? (a.rules options) (a.actsIn doc) ≠ none := fun hnone =>
    firstRaised?_eq_none_iff.mp hnone h
  obtain ⟨r, hr⟩ := Option.ne_none_iff_exists'.mp hsome
  obtain ⟨act, hact, hraised⟩ := List.exists_of_findSome?_eq_some hr
  obtain ⟨kind, message, rfl⟩ := (hacts act hact).raised_failure hraised
  refine ⟨kind, message, hr, ?_⟩
  rw [findings, hr]

end Analyzer

namespace Linter

open Work

variable {inert : Prop} {l : Linter} {doc : Document}

theorem gives_runOne {a : Analyzer} {sev : Severities} (hsev : sev.get? = a.rules l.options)
    (hacts : ∀ act ∈ a.actsIn doc, act.Uncanceling inert) :
    Gives inert (runOne a sev doc) (a.findings l.options doc) := by
  intro s hs
  have hperforms : Performs inert a.name sev (visitDocument a sev doc) (a.actsIn doc) :=
    performs_visitDocument hacts
  obtain ⟨s', reports, hs', hrun, hreports⟩ := hperforms s [] hs
  rw [hsev] at hrun hreports
  have hget : (get : Work LintError Session).runIn s = (.ok s, s) := rfl
  rw [runOne, runIn_bind, hget]
  dsimp only
  rw [hrun]
  by_cases h : a.Fails l.options doc
  · obtain ⟨kind, message, hfirst, hfindings⟩ := a.exists_findings_of_fails h hacts
    rw [ending, hfirst, hfindings]
    exact ⟨_, rfl, hs'.quiet, hs'.inert⟩
  · have hfirst := Analyzer.firstRaised?_eq_none_iff.mpr h
    rw [ending, hfirst, Analyzer.findings_of_not_fails h, hreports hfirst]
    exact ⟨_, rfl, hs'⟩

/-- The analyzers of a selection, in its order; without one, all that are switched on. -/
def selected (l : Linter) : Option (List String) → List Analyzer
  | none => l.registry.enabled
  | some names => names.filterMap l.registry.get?

theorem gives_select (selection : Option (List String)) :
    Gives inert (l.select selection) (l.selected selection) := by
  cases selection with
  | none => exact gives_pure _
  | some names =>
    rw [select, selected]
    induction names with
    | nil => exact gives_pure []
    | cons name names ih =>
      rw [List.filterMapM_cons, List.filterMap_cons]
      cases hname : l.registry.get? name with
      | none =>
        have hskip : Gives inert (do
            record (.unknownAnalyzer name)
            return none : Work LintError (Option Analyzer)) none :=
          (gives_record _).bind (gives_pure none)
        exact hskip.bind ih
      | some a => exact (gives_pure (some a)).bind (ih.bind (gives_pure _))

/-- The selected analyzers that are on. -/
def running (l : Linter) (selection : Option (List String)) : List Analyzer :=
  (l.selected selection).filter fun a => a.isOn l.options

/-- Results with one more block. -/
def withBlock (block : Analyzer → List Diagnostic) (r : Results) (a : Analyzer) : Results :=
  r.addBlock a.name (block a) (Binary64.zero false)

/-- The diagnostics of one analyzer in a run. -/
def block (l : Linter) (doc : Document) (a : Analyzer) : List Diagnostic :=
  l.suppressions.keep (a.findings l.options doc)

theorem block_eq_filter (l : Linter) (doc : Document) (a : Analyzer) :
    l.block doc a = (a.findings l.options doc).filter fun d => ¬ l.suppressions.Silenced d :=
  l.suppressions.keep_eq_filter _

theorem gives_runAnalyzer {a : Analyzer} (hresolved : a.Resolved l.options)
    (hacts : ∀ act ∈ a.actsIn doc, act.Uncanceling inert) (r : Results) :
    Gives inert (l.runAnalyzer doc r a)
      (if a.isOn l.options then withBlock (l.block doc) r a else r) := by
  obtain ⟨sev, hsev, hget, hoff⟩ := exists_severities hresolved
  rw [runAnalyzer, hsev]
  refine (polls_poll.gives).bind ?_
  by_cases hon : a.isOn l.options = true
  · have hsome : ¬ (sev.all fun e => e.2.isNone) = true := fun h => hoff.mp h hon
    rw [if_pos hon]
    simp only [hsome]
    exact (gives_runOne hget hacts).bind (gives_pure _)
  · rw [if_neg hon]
    simp only [hoff.mpr hon]
    exact (gives_record _).bind (gives_pure r)

/-- Without cancellation a run adds the blocks of the selected analyzers that are on, one after
another. -/
theorem gives_run {selection : Option (List String)}
    (hresolved : ∀ a ∈ l.selected selection, a.Resolved l.options)
    (hacts : ∀ a ∈ l.selected selection, ∀ act ∈ a.actsIn doc, act.Uncanceling inert) :
    Gives inert (l.run selection doc)
      ((l.running selection).foldl (withBlock (l.block doc)) .empty) := by
  rw [running, List.foldl_filter]
  exact (gives_select selection).bind
    (gives_foldlM (fun r a ha => gives_runAnalyzer (hresolved a ha) (hacts a ha) r) .empty)

/-- The blocks are joined in order. -/
theorem foldl_withBlock (block : Analyzer → List Diagnostic) (as : List Analyzer) (r : Results) :
    (as.foldl (withBlock block) r).diagnostics = r.diagnostics ++ as.flatMap block ∧
      (as.foldl (withBlock block) r).analyzers = r.analyzers ++ as.map (·.name) := by
  induction as generalizing r with
  | nil => exact ⟨(List.append_nil _).symm, (List.append_nil _).symm⟩
  | cons a as ih =>
    obtain ⟨hdiagnostics, hanalyzers⟩ := ih (withBlock block r a)
    have hnames : r.analyzers ++ a.name :: as.map (·.name) =
        (r.analyzers ++ [a.name]) ++ as.map (·.name) := List.append_cons r.analyzers a.name _
    rw [List.foldl_cons, hdiagnostics, hanalyzers, List.flatMap_cons, List.map_cons, hnames,
      ← List.append_assoc]
    exact ⟨rfl, rfl⟩

/-- A run without cancellation yields one block for each selected analyzer that is on, in the order of
the selection, whatever the other analyzers do: what the analyzer finds, less what a suppression silences.
For an analyzer that fails a single diagnostic is found; from any other all reports are taken over, in the
order of the nodes, for one node in the order in which the actions were registered for its kind, and for one
action in the order in which it made them. -/
theorem run_blocks {l : Linter} {selection : Option (List String)} {doc : Document} {s : Session}
    (hs : s.Quiet) (hoptions : l.options.Recognised)
    (hacts : ∀ a ∈ l.selected selection, ∀ act ∈ a.actsIn doc, act.Uncanceling s.Inert) :
    (∃ results, ((l.run selection doc).runIn s).1 = .ok results ∧
      results.diagnostics = ((l.selected selection).filter fun a => a.isOn l.options).flatMap
        (fun a => (a.findings l.options doc).filter fun d => ¬ l.suppressions.Silenced d) ∧
      results.analyzers = ((l.selected selection).filter fun a => a.isOn l.options).map (·.name)) ∧
    ∀ a ∈ l.selected selection,
      (a.Fails l.options doc → ∃ kind message,
        firstRaised? (a.rules l.options) (a.actsIn doc) = some (.failure kind message) ∧
        a.findings l.options doc = [failureDiagnostic a.name doc.file kind message]) ∧
      (¬ a.Fails l.options doc → a.findings l.options doc =
        (a.actsIn doc).filterMap (Act.collected? a.name (a.rules l.options))) ∧
      ∀ regs, a.start = (Actions.registerAll regs).mapError (Raised.failure "ValueError") →
        ((∃ reg ∈ regs, reg.2 = []) → a.Fails l.options doc) ∧
        ((∀ reg ∈ regs, reg.2 ≠ []) → a.actsIn doc = doc.root.preorder.flatMap fun node =>
          regs.flatMap fun reg => (List.replicate (reg.2.count node.kind) reg.1).flatMap
            fun action => action doc node) := by
  refine ⟨?_, fun a ha => ⟨fun h => ?_, Analyzer.findings_of_not_fails, fun regs hstart =>
    ⟨Analyzer.fails_of_registerAll hstart, Analyzer.actsIn_of_registerAll hstart⟩⟩⟩
  · have hresolved : ∀ a ∈ l.selected selection, a.Resolved l.options := fun a _ =>
      Analyzer.resolved_of_recognised hoptions a
    obtain ⟨s', hrun, -⟩ := gives_run hresolved hacts s ⟨hs, id⟩
    obtain ⟨hdiagnostics, hanalyzers⟩ :=
      foldl_withBlock (l.block doc) (l.running selection) .empty
    have hvisible := List.flatMap_congr (l := l.running selection) fun a _ => l.block_eq_filter doc a
    exact ⟨_, congrArg Prod.fst hrun, hdiagnostics.trans hvisible, hanalyzers⟩
  · exact Analyzer.exists_findings_of_fails h (hacts a ha)

/-- A document with an event in the wrong order. -/
def clockDocument : Document := ⟨"Clock.cs",
  ⟨0, .eventDeclaration, ⟨"Clock.cs", 3, 5⟩, "Tick", false,
    [⟨1, .accessorList, ⟨"Clock.cs", 4, 5⟩, "", false,
      [⟨2, .removeAccessor, ⟨"Clock.cs", 5, 9⟩, "", false, []⟩,
        ⟨3, .addAccessor, ⟨"Clock.cs", 6, 9⟩, "", false, []⟩]⟩]⟩⟩

/-- An analyzer that makes a report, and then one of a rule that it does not support. -/
def strayAnalyzer : Analyzer where
  name := "Stray"
  supported := [EventOrder.descriptor]
  start := (Actions.registerAll [(fun _ node => [
    .report ⟨EventOrder.descriptor, node.location, [], none, ""⟩,
    .report ⟨.analyzerFailed, node.location, [], none, ""⟩], [.addAccessor])]).mapError
      (Raised.failure "ValueError")

/-- The two analyzers with their rule switched on. It is suppressed in another file, and failures are in all
files whose names end as that of the document does. -/
def strayLinter : Linter where
  registry :=
    ⟨[(strayAnalyzer.name, strayAnalyzer), (EventOrder.analyzer.name, EventOrder.analyzer)], []⟩
  suppressions := [.inFiles "SA1213" "Watch.cs", .inFiles "AD0001" "lock.cs"]
  options := [("SA1213", " Error")]

/-- A selection against the order of registration, with a name that is not registered. -/
def straySelection : Option (List String) := some [EventOrder.analyzer.name, "Absent", "Stray"]

/-- What one analyzer reported before it failed is lost, its failure is suppressed, and the other's report
is neither. -/
theorem run_blocks_stray :
    (Session.start none).Quiet ∧ strayLinter.options.Recognised ∧
      (∀ a ∈ strayLinter.selected straySelection, ∀ act ∈ a.actsIn clockDocument,
        act.Uncanceling (Session.start none).Inert) ∧
      (∃ results, ((strayLinter.run straySelection clockDocument).runIn (.start none)).1 =
          .ok results ∧
        results.diagnostics = [⟨EventOrder.descriptor, ⟨"Clock.cs", 5, 9⟩, [], some .error,
          "SA1213EventAccessorsMustFollowOrder"⟩] ∧
        results.analyzers = ["SA1213EventAccessorsMustFollowOrder", "Stray"]) ∧
      strayAnalyzer.Fails strayLinter.options clockDocument ∧
      strayAnalyzer.findings strayLinter.options clockDocument = [
        failureDiagnostic "Stray" "Clock.cs" "ValueError"
          "Reported diagnostic with ID 'AD0001' is not supported by the analyzer."] := by
  have hquiet : (Session.start none).Quiet := Session.quiet_of_token rfl
  have hoptions : strayLinter.options.Recognised :=
    SeverityOptions.recognised_singleton (Or.inr (by decide))
  have hselected : strayLinter.selected straySelection = [EventOrder.analyzer, strayAnalyzer] := rfl
  have hacts : ∀ a ∈ strayLinter.selected straySelection, ∀ act ∈ a.actsIn clockDocument,
      act.Uncanceling (Session.start none).Inert := by
    have hstray : ∃ d d', strayAnalyzer.actsIn clockDocument = [.report d, .report d'] := ⟨_, _, rfl⟩
    have hordered : ∃ d, EventOrder.analyzer.actsIn clockDocument = [.report d] := ⟨_, rfl⟩
    obtain ⟨d, d', hstray⟩ := hstray
    obtain ⟨d'', hordered⟩ := hordered
    rw [hselected]
    simp [hstray, hordered, Act.Uncanceling]
  obtain ⟨⟨results, hrun, hdiagnostics, hanalyzers⟩, hblocks⟩ := run_blocks hquiet hoptions hacts
  have hmem : strayAnalyzer ∈ strayLinter.selected straySelection :=
    List.mem_cons_of_mem _ List.mem_cons_self
  have hraised : firstRaised? (strayAnalyzer.rules strayLinter.options)
      (strayAnalyzer.actsIn clockDocument) = some (unsupported "AD0001") := by decide
  have hfails : strayAnalyzer.Fails strayLinter.options clockDocument := by
    by_contra h
    rw [Analyzer.firstRaised?_eq_none_iff.mpr h] at hraised
    cases hraised
  obtain ⟨kind, message, hfirst, hfindings⟩ := (hblocks _ hmem).1 hfails
  obtain ⟨rfl, rfl⟩ := Raised.failure.inj (Option.some.inj (hraised.symm.trans hfirst))
  exact ⟨hquiet, hoptions, hacts, ⟨results, hrun, hdiagnostics.trans (by decide),
    hanalyzers.trans (by decide)⟩, hfails, hfindings⟩

end Linter

end TierHost
