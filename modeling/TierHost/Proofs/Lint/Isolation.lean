import TierHost.Proofs.Lint.Merged

/-!
Two runs under options that differ in the value for one rule. Whether an analyzer fails depends on the
rules that it supports only, so that it fails under both options or under neither. What it reports of
other rules is the same, and what it reports of that rule differs in the severity.
-/

namespace TierHost

/-- The options differ in the value for one rule at most. -/
def SeverityOptions.AgreeOff (x : String) (options options' : SeverityOptions) : Prop :=
  ∀ id, id ≠ x → options.get? id = options'.get? id

def Diagnostic.withSeverity (severity : Severity) (d : Diagnostic) : Diagnostic :=
  { d with severity := some severity }

/-- The diagnostics of other rules than this one, without those of failed analyzers. -/
def Results.apartFrom (r : Results) (x : String) : List Diagnostic :=
  r.diagnostics.filter fun d => d.id ≠ x ∧ d.id ≠ Descriptor.analyzerFailed.id

/-- The diagnostics of one rule that an analyzer reported. -/
def Results.ofRule (r : Results) (name id : String) : List Diagnostic :=
  r.diagnostics.filter fun d => d.analyzer = name ∧ d.id = id

section Acts

variable {rules rules' : Rules} {x : String}

/-- Whether an act raises something depends on the supported rules only, not on their severities. -/
theorem Act.raised?_congr (h : ∀ id, (rules id).isSome = (rules' id).isSome) (act : Act) :
    act.raised? rules = act.raised? rules' := by
  cases act with
  | report d => rw [raised?, raised?, h d.id]
  | raise r => rfl
  | cancel => rfl

/-- What is collected of a report is of the same rule. -/
theorem Act.filter_collected?_eq_none {d : Diagnostic} (q : String → Bool) (h : q d.id = false)
    (name : String) (rules : Rules) :
    (Act.collected? name rules (.report d)).filter (fun d => q d.id) = none := by
  rw [Option.filter_eq_none_iff]
  intro d' hd' hq
  obtain ⟨severity, -, rfl⟩ := Option.map_eq_some_iff.mp hd'
  exact Bool.false_ne_true (h.symm.trans hq)

/-- What is collected of other rules does not depend on the severity of this one. -/
theorem Act.filter_collected?_ne (h : ∀ id, id ≠ x → rules id = rules' id) (name : String)
    (act : Act) :
    (act.collected? name rules).filter (fun d => d.id ≠ x) =
      (act.collected? name rules').filter fun d => d.id ≠ x := by
  cases act with
  | report d =>
    by_cases hid : d.id = x
    · have hnone := filter_collected?_eq_none (fun id => id ≠ x) (by simpa using hid) name
      exact (hnone rules).trans (hnone rules').symm
    · rw [collected?, collected?, h d.id hid]
  | raise r => rfl
  | cancel => rfl

/-- What is collected of a rule that is not off differs in its severity only. -/
theorem Act.filter_collected?_eq {severity severity' : Severity}
    (h : rules x = some (some severity)) (h' : rules' x = some (some severity')) (name : String)
    (act : Act) :
    ((act.collected? name rules).filter fun d => d.id = x).map (·.withSeverity severity') =
      (act.collected? name rules').filter fun d => d.id = x := by
  cases act with
  | report d =>
    by_cases hid : d.id = x
    · have hkept (severity : Severity) :
          (some { d with severity := some severity, analyzer := name }).filter (fun d => d.id = x) =
            some { d with severity := some severity, analyzer := name } :=
        Option.filter_some.trans (if_pos (decide_eq_true hid))
      rw [collected?_report (hid ▸ h), collected?_report (hid ▸ h'), hkept, hkept]
      rfl
    · have hnone := filter_collected?_eq_none (fun id => id = x) (decide_eq_false hid) name
      rw [hnone rules, hnone rules', Option.map_none]
  | raise r => rfl
  | cancel => rfl

end Acts

namespace Analyzer

variable {a : Analyzer} {options options' : SeverityOptions} {doc : Document} {x : String}

theorem isSome_rules (a : Analyzer) (options options' : SeverityOptions) (id : String) :
    (a.rules options id).isSome = (a.rules options' id).isSome := by
  rw [rules, rules, Option.isSome_map, Option.isSome_map]

theorem rules_congr (h : options.AgreeOff x options') (a : Analyzer) {id : String} (hid : id ≠ x) :
    a.rules options id = a.rules options' id := by
  rw [rules, rules]
  cases hfind : a.supported.reverse.find? fun d => d.id = id with
  | none => rw [Option.map_none, Option.map_none]
  | some d =>
    have hd : d.id = id := by simpa using List.find?_some hfind
    have hseverity : d.severityUnder options = d.severityUnder options' := by
      rw [Descriptor.severityUnder, Descriptor.severityUnder, h d.id (hd.trans_ne hid)]
    rw [Option.map_some, Option.map_some, hseverity]

/-- An analyzer fails under all options or under none, and in the same way. -/
theorem firstRaised?_congr (options options' : SeverityOptions) (acts : List Act) :
    Linter.firstRaised? (a.rules options) acts = Linter.firstRaised? (a.rules options') acts := by
  have hraised : Act.raised? (a.rules options) = Act.raised? (a.rules options') :=
    funext fun act => act.raised?_congr (a.isSome_rules options options')
  rw [Linter.firstRaised?, Linter.firstRaised?, hraised]

/-- What is found of other rules does not depend on the option for this one. -/
theorem filter_findings_ne (h : options.AgreeOff x options') :
    ((a.findings options doc).filter fun d => d.id ≠ x) =
      (a.findings options' doc).filter fun d => d.id ≠ x := by
  rw [findings, findings, firstRaised?_congr options options']
  split
  · rw [Linter.collected, Linter.collected, List.filter_filterMap, List.filter_filterMap]
    apply List.filterMap_congr
    intro act _
    exact act.filter_collected?_ne (fun id => rules_congr h a) a.name
  · rfl
  · rfl

/-- What is found of a rule that is not off differs in its severity only. -/
theorem filter_findings_eq (hx : x ≠ Descriptor.analyzerFailed.id) {severity severity' : Severity}
    (h : a.rules options x = some (some severity))
    (h' : a.rules options' x = some (some severity')) :
    ((a.findings options doc).filter fun d => d.id = x).map (·.withSeverity severity') =
      (a.findings options' doc).filter fun d => d.id = x := by
  rw [findings, findings, firstRaised?_congr options options']
  split
  · rw [Linter.collected, Linter.collected, List.filter_filterMap, List.filter_filterMap,
      List.map_filterMap]
    apply List.filterMap_congr
    intro act _
    exact act.filter_collected?_eq h h' a.name
  · -- a failed analyzer reports no rule of its own
    have hnone (kind message : String) :
        ([Linter.failureDiagnostic a.name doc.file kind message].filter fun d => d.id = x) = [] := by
      rw [List.filter_eq_nil_iff]
      intro d hd he
      rw [List.mem_singleton.mp hd] at he
      exact hx (of_decide_eq_true he).symm
    rw [hnone]
    rfl
  · rfl

/-- What is found is of a rule that is not off, unless the analyzer failed. -/
theorem rule_of_mem_findings {d : Diagnostic} (h : d ∈ a.findings options doc) :
    d.id = Descriptor.analyzerFailed.id ∨ ∃ severity, a.rules options d.id = some (some severity) := by
  rcases cases_of_mem_findings h with ⟨d', severity, hrule, rfl⟩ | ⟨kind, message, rfl⟩
  · exact Or.inr ⟨severity, hrule⟩
  · exact Or.inl rfl

end Analyzer

namespace Linter

variable {l : Linter} {options' : SeverityOptions} {selection : Option (List String)}
  {doc : Document} {a : Analyzer} {x : String}

/-- Failures apart, leaving out the analyzers whose rules are all off leaves out no diagnostic. -/
theorem filter_flatMap_block {p : Diagnostic → Bool}
    (hp : ∀ d, p d = true → d.id ≠ Descriptor.analyzerFailed.id) (as : List Analyzer) :
    ((as.filter fun a => a.isOn l.options).flatMap (l.block doc)).filter p =
      as.flatMap fun a => (l.block doc a).filter p := by
  induction as with
  | nil => rfl
  | cons a as ih =>
    rw [List.flatMap_cons, ← ih, List.filter_cons]
    by_cases hon : a.isOn l.options = true
    · rw [if_pos hon, List.flatMap_cons, List.filter_append]
    · have hnone : (l.block doc a).filter p = [] := by
        rw [List.filter_eq_nil_iff]
        intro d hd hpd
        rcases Analyzer.rule_of_mem_findings (List.mem_of_mem_filter hd) with hfailed | hrule
        · exact hp d hpd hfailed
        · exact hon (Analyzer.isOn_iff.mpr ⟨d.id, hrule⟩)
      rw [if_neg hon, hnone, List.nil_append]

theorem apartFrom_partialResults :
    (l.partialResults selection doc).apartFrom x = (l.selected selection).flatMap fun a =>
      (l.block doc a).filter fun d => d.id ≠ x ∧ d.id ≠ Descriptor.analyzerFailed.id := by
  rw [Results.apartFrom, diagnostics_partialResults]
  exact filter_flatMap_block (fun d hd => (of_decide_eq_true hd).2) _

theorem ofRule_partialResults (hx : x ≠ Descriptor.analyzerFailed.id) (name : String) :
    (l.partialResults selection doc).ofRule name x =
      (l.selected selection).flatMap fun a =>
        if a.name = name then (l.block doc a).filter fun d => d.id = x else [] := by
  rw [Results.ofRule, diagnostics_partialResults]
  refine (filter_flatMap_block (fun d hd => ?_) _).trans (List.flatMap_congr fun a _ => ?_)
  · rw [(of_decide_eq_true hd).2]
    exact hx
  · by_cases hname : a.name = name
    · rw [if_pos hname]
      apply List.filter_congr
      intro d hd
      simp [(analyzer_of_mem_block hd).trans hname]
    · rw [if_neg hname, List.filter_eq_nil_iff]
      intro d hd he
      exact hname ((analyzer_of_mem_block hd).symm.trans (of_decide_eq_true he).1)

/-- What an analyzer yields of other rules does not depend on the option for this one. -/
theorem filter_block_ne (h : l.options.AgreeOff x options') (a : Analyzer) :
    ((l.block doc a).filter fun d => d.id ≠ x) =
      (({ l with options := options' } : Linter).block doc a).filter fun d => d.id ≠ x := by
  rw [block, block, Suppressions.keep, Suppressions.keep, List.filter_comm,
    Analyzer.filter_findings_ne h, List.filter_comm]

/-- What an analyzer yields of a rule that is not off differs in its severity only. -/
theorem filter_block_eq (hx : x ≠ Descriptor.analyzerFailed.id) {severity severity' : Severity}
    (h : a.rules l.options x = some (some severity))
    (h' : a.rules options' x = some (some severity')) :
    ((l.block doc a).filter fun d => d.id = x).map (·.withSeverity severity') =
      (({ l with options := options' } : Linter).block doc a).filter fun d => d.id = x := by
  let visible (d : Diagnostic) : Bool := !l.suppressions.silence d
  calc ((l.block doc a).filter fun d => d.id = x).map (·.withSeverity severity')
    _ = (((a.findings l.options doc).filter fun d => d.id = x).filter visible).map
        (·.withSeverity severity') := by
      rw [block, Suppressions.keep, List.filter_comm]
    -- suppressions do not look at severities
    _ = (((a.findings l.options doc).filter fun d => d.id = x).map
        (·.withSeverity severity')).filter visible := by
      rw [List.filter_map]
      rfl
    _ = ((a.findings options' doc).filter fun d => d.id = x).filter visible := by
      rw [Analyzer.filter_findings_eq hx h h']
    _ = (({ l with options := options' } : Linter).block doc a).filter fun d => d.id = x := by
      rw [block, Suppressions.keep, List.filter_comm]

/-- Of a rule that is off, or that it does not support, an analyzer yields nothing. -/
theorem filter_block_eq_nil (hx : x ≠ Descriptor.analyzerFailed.id)
    (h : ∀ severity, a.rules l.options x ≠ some (some severity)) :
    ((l.block doc a).filter fun d => d.id = x) = [] := by
  rw [List.filter_eq_nil_iff]
  intro d hd he
  have hid : d.id = x := of_decide_eq_true he
  rcases Analyzer.rule_of_mem_findings (List.mem_of_mem_filter hd) with hfailed | ⟨severity, hrule⟩
  · exact hx (hid.symm.trans hfailed)
  · exact h severity (hid ▸ hrule)

theorem apartFrom_congr (h : l.options.AgreeOff x options') :
    (l.partialResults selection doc).apartFrom x =
      (({ l with options := options' } : Linter).partialResults selection doc).apartFrom x := by
  rw [apartFrom_partialResults, apartFrom_partialResults]
  -- an analyzer may be on in one of the runs only, so the blocks of all that are selected are compared
  refine List.flatMap_congr fun a _ => ?_
  have hsplit (ds : List Diagnostic) :
      (ds.filter fun d => d.id ≠ x ∧ d.id ≠ Descriptor.analyzerFailed.id) =
        (ds.filter fun d => d.id ≠ x).filter fun d => d.id ≠ Descriptor.analyzerFailed.id := by
    rw [List.filter_filter]
    exact List.filter_congr fun d _ => by rw [Bool.and_comm, Bool.decide_and]
  rw [hsplit, hsplit, filter_block_ne h]

theorem ofRule_congr (hkeyed : l.registry.Keyed) (hx : x ≠ Descriptor.analyzerFailed.id)
    (ha : a ∈ l.selected selection) {severity severity' : Severity}
    (h : a.rules l.options x = some (some severity))
    (h' : a.rules options' x = some (some severity')) :
    ((l.partialResults selection doc).ofRule a.name x).map (·.withSeverity severity') =
      (({ l with options := options' } : Linter).partialResults selection doc).ofRule a.name x := by
  rw [ofRule_partialResults hx, ofRule_partialResults hx, List.map_flatMap]
  -- what has the analyzer's name is the analyzer, as often as it was selected
  refine List.flatMap_congr fun b hb => ?_
  by_cases hname : b.name = a.name
  · obtain rfl : b = a := eq_of_name hkeyed hb ha hname
    rw [if_pos rfl, if_pos rfl]
    exact filter_block_eq hx h h'
  · rw [if_neg hname, if_neg hname, List.map_nil]

theorem ofRule_eq_nil (hkeyed : l.registry.Keyed) (hx : x ≠ Descriptor.analyzerFailed.id)
    (ha : a ∈ l.selected selection) (h : ∀ severity, a.rules l.options x ≠ some (some severity)) :
    (l.partialResults selection doc).ofRule a.name x = [] := by
  rw [ofRule_partialResults hx, List.flatMap_eq_nil_iff]
  intro b hb
  by_cases hname : b.name = a.name
  · obtain rfl : b = a := eq_of_name hkeyed hb ha hname
    rw [if_pos rfl]
    exact filter_block_eq_nil hx h
  · rw [if_neg hname]

/-- Changing the option for one rule changes what a run without cancellation reports of that rule only:
its severity, where the rule has one under both options, and whether it is reported at all. -/
theorem run_isolates {l : Linter} {options' : SeverityOptions} {x : String}
    {selection : Option (List String)} {doc : Document} {s : Session}
    (hx : x ≠ Descriptor.analyzerFailed.id) (hagree : l.options.AgreeOff x options')
    (hs : s.Quiet) (hoptions : l.options.Recognised) (hoptions' : options'.Recognised)
    (hregistry : l.registry.Reachable)
    (hacts : ∀ a ∈ l.selected selection, ∀ act ∈ a.actsIn doc, act.Uncanceling s.Inert) :
    ∃ r r', ((l.run selection doc).runIn s).1 = .ok r ∧
      ((({ l with options := options' } : Linter).run selection doc).runIn s).1 = .ok r' ∧
      r.apartFrom x = r'.apartFrom x ∧
      ∀ a ∈ l.selected selection,
        (∀ severity severity', a.rules l.options x = some (some severity) →
          a.rules options' x = some (some severity') → ∃ reports : List Diagnostic,
            r.ofRule a.name x = reports.map (·.withSeverity severity) ∧
            r'.ofRule a.name x = reports.map (·.withSeverity severity')) ∧
        ((∀ severity, a.rules l.options x ≠ some (some severity)) → r.ofRule a.name x = []) ∧
        ((∀ severity, a.rules options' x ≠ some (some severity)) → r'.ofRule a.name x = []) := by
  let l' : Linter := { l with options := options' }
  have hkeyed := hregistry.keyed
  -- both runs end well, with the blocks of the analyzers that are on under their options
  obtain ⟨_, hrun, -⟩ := gives_run (fun a _ => Analyzer.resolved_of_recognised hoptions a) hacts s
    ⟨hs, id⟩
  obtain ⟨_, hrun', -⟩ := gives_run (l := l')
    (fun a _ => Analyzer.resolved_of_recognised hoptions' a) hacts s ⟨hs, id⟩
  refine ⟨_, _, congrArg Prod.fst hrun, congrArg Prod.fst hrun', apartFrom_congr hagree, ?_⟩
  intro a ha
  refine ⟨?_, ofRule_eq_nil hkeyed hx ha, ofRule_eq_nil (l := l') hkeyed hx ha⟩
  intro severity severity' h h'
  exact ⟨(l.partialResults selection doc).ofRule a.name x,
    (ofRule_congr hkeyed hx ha h h).symm, (ofRule_congr hkeyed hx ha h h').symm⟩

/-- A rule beside that of event accessors, which is on without an option. -/
def namedDescriptor : Descriptor := { EventOrder.descriptor with id := "SA1300", enabled := true }

/-- An analyzer that reports two rules for every event. -/
def pairAnalyzer : Analyzer where
  name := "Pair"
  supported := [EventOrder.descriptor, namedDescriptor]
  start := (Actions.registerAll [(fun _ node => [
    .report ⟨EventOrder.descriptor, node.location, [], none, ""⟩,
    .report ⟨namedDescriptor, node.location, [], none, ""⟩], [.eventDeclaration])]).mapError
      (Raised.failure "ValueError")

/-- What the analyzer of two rules reports of one of them for the event of the clock. -/
def pairReport (rule : Descriptor) (severity : Severity) : Diagnostic :=
  ⟨rule, ⟨"Clock.cs", 3, 5⟩, [], some severity, "Pair"⟩

/-- The two analyzers with an option for the rule that both support. -/
def pairLinter (value : String) : Linter where
  registry :=
    ⟨[(pairAnalyzer.name, pairAnalyzer), (EventOrder.analyzer.name, EventOrder.analyzer)], []⟩
  suppressions := []
  options := [("SA1213", value)]

theorem pairLinter_agreeOff (value value' : String) :
    (pairLinter value).options.AgreeOff "SA1213" (pairLinter value').options := by
  intro id hid
  rw [pairLinter, pairLinter, Listing.get?_cons, Listing.get?_cons, if_neg hid.symm,
    if_neg hid.symm]

theorem pairLinter_reachable (value : String) : (pairLinter value).registry.Reachable :=
  .register (a := EventOrder.analyzer) (.register (a := pairAnalyzer) .empty rfl) rfl

theorem pairLinter_uncanceling (value : String) :
    ∀ a ∈ (pairLinter value).selected none, ∀ act ∈ a.actsIn clockDocument,
      act.Uncanceling (Session.start none).Inert := by
  have hselected : (pairLinter value).selected none = [pairAnalyzer, EventOrder.analyzer] := rfl
  obtain ⟨d, d', hpair⟩ : ∃ d d', pairAnalyzer.actsIn clockDocument = [.report d, .report d'] :=
    ⟨_, _, rfl⟩
  obtain ⟨d'', hordered⟩ : ∃ d, EventOrder.analyzer.actsIn clockDocument = [.report d] := ⟨_, rfl⟩
  rw [hselected]
  simp [hpair, hordered, Act.Uncanceling]

theorem eq_partialResults_pairLinter {value : String} {r : Results}
    (hoptions : (pairLinter value).options.Recognised)
    (h : (((pairLinter value).run none clockDocument).runIn (.start none)).1 = .ok r) :
    r = (pairLinter value).partialResults none clockDocument := by
  obtain ⟨s', hrun, -⟩ := gives_run (fun a _ => Analyzer.resolved_of_recognised hoptions a)
    (pairLinter_uncanceling value) (.start none) ⟨Session.quiet_of_token rfl, id⟩
  exact Except.ok.inj (h.symm.trans (congrArg Prod.fst hrun))

/-- Switching a rule on makes one analyzer run that was left out, and the other keeps its report of
another rule. Making the rule an error changes nothing but the severity of its reports. -/
theorem run_isolates_pair :
    "SA1213" ≠ Descriptor.analyzerFailed.id ∧ (Session.start none).Quiet ∧
      (pairLinter "none").options.Recognised ∧ (pairLinter "warning").options.Recognised ∧
      (pairLinter "error").options.Recognised ∧
      (pairLinter "none").options.AgreeOff "SA1213" (pairLinter "error").options ∧
      (pairLinter "warning").options.AgreeOff "SA1213" (pairLinter "error").options ∧
      (pairLinter "none").registry.Reachable ∧ (pairLinter "warning").registry.Reachable ∧
      (∀ a ∈ (pairLinter "none").selected none, ∀ act ∈ a.actsIn clockDocument,
        act.Uncanceling (Session.start none).Inert) ∧
      (∃ off on, (((pairLinter "none").run none clockDocument).runIn (.start none)).1 = .ok off ∧
        (((pairLinter "error").run none clockDocument).runIn (.start none)).1 = .ok on ∧
        off.analyzers = ["Pair"] ∧ on.analyzers = ["Pair", EventOrder.analyzer.name] ∧
        off.apartFrom "SA1213" = [pairReport namedDescriptor .warning] ∧
        on.apartFrom "SA1213" = [pairReport namedDescriptor .warning] ∧
        off.ofRule "Pair" "SA1213" = [] ∧ off.ofRule EventOrder.analyzer.name "SA1213" = []) ∧
      ∃ mild strict,
        (((pairLinter "warning").run none clockDocument).runIn (.start none)).1 = .ok mild ∧
        (((pairLinter "error").run none clockDocument).runIn (.start none)).1 = .ok strict ∧
        mild.apartFrom "SA1213" = strict.apartFrom "SA1213" ∧
        mild.ofRule "Pair" "SA1213" = [pairReport EventOrder.descriptor .warning] ∧
        strict.ofRule "Pair" "SA1213" = [pairReport EventOrder.descriptor .error] := by
  have hx : "SA1213" ≠ Descriptor.analyzerFailed.id := by decide
  have hquiet : (Session.start none).Quiet := Session.quiet_of_token rfl
  have hnone : (pairLinter "none").options.Recognised :=
    SeverityOptions.recognised_singleton (Or.inr (by decide))
  have hwarning : (pairLinter "warning").options.Recognised :=
    SeverityOptions.recognised_singleton (Or.inr (by decide))
  have herror : (pairLinter "error").options.Recognised :=
    SeverityOptions.recognised_singleton (Or.inr (by decide))
  refine ⟨hx, hquiet, hnone, hwarning, herror, pairLinter_agreeOff _ _, pairLinter_agreeOff _ _,
    pairLinter_reachable _, pairLinter_reachable _, pairLinter_uncanceling _, ?_, ?_⟩
  · obtain ⟨off, on, hoff, hon, hapart, hrules⟩ := run_isolates hx
      (pairLinter_agreeOff "none" "error") hquiet hnone herror (pairLinter_reachable "none")
      (pairLinter_uncanceling "none")
    have hsilent {a : Analyzer} (ha : a ∈ (pairLinter "none").selected none)
        (hrule : a.rules (pairLinter "none").options "SA1213" = some none) :
        off.ofRule a.name "SA1213" = [] := by
      apply (hrules a ha).2.1
      intro severity hsome
      rw [hrule] at hsome
      cases hsome
    have hnamed : off.apartFrom "SA1213" = [pairReport namedDescriptor .warning] := by
      rw [eq_partialResults_pairLinter hnone hoff]
      decide
    refine ⟨off, on, hoff, hon, ?_, ?_, hnamed, hapart.symm.trans hnamed, ?_, ?_⟩
    · rw [eq_partialResults_pairLinter hnone hoff]
      decide
    · rw [eq_partialResults_pairLinter herror hon]
      decide
    · exact hsilent (a := pairAnalyzer) List.mem_cons_self (by decide)
    · exact hsilent (List.mem_cons_of_mem _ List.mem_cons_self) (by decide)
  · obtain ⟨mild, strict, hmild, hstrict, hapart, hrules⟩ := run_isolates hx
      (pairLinter_agreeOff "warning" "error") hquiet hwarning herror
      (pairLinter_reachable "warning") (pairLinter_uncanceling "warning")
    obtain ⟨reports, hreports, hreports'⟩ := (hrules pairAnalyzer List.mem_cons_self).1 .warning
      .error (by decide) (by decide)
    have hvalue : mild.ofRule "Pair" "SA1213" = [pairReport EventOrder.descriptor .warning] := by
      rw [eq_partialResults_pairLinter hwarning hmild]
      decide
    -- the reports differ in their severity only, so that one run tells those of the other
    refine ⟨mild, strict, hmild, hstrict, hapart, hvalue, hreports'.trans ?_⟩
    calc reports.map (·.withSeverity .error)
      _ = (reports.map (·.withSeverity .warning)).map (·.withSeverity .error) := by
        rw [List.map_map]
        rfl
      _ = [pairReport EventOrder.descriptor .error] := by
        rw [← hreports]
        exact congrArg (List.map (·.withSeverity .error)) hvalue

end Linter

end TierHost
