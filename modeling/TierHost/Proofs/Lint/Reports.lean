import TierHost.Proofs.Lint.Blocks
import TierHost.Proofs.Lint.Swap

/-!
What running the analyzer of event accessors yields: one diagnostic for each event that is reported and
not suppressed, in pre-order.
-/

namespace TierHost.EventOrder

open Linter Work

/-- The diagnostic of an event, at the location of its remove accessor. -/
def diagnosticAt (severity : Severity) (place : Location) : Diagnostic :=
  ⟨descriptor, place, [], some severity, analyzer.name⟩

/-- What the analyzer does is to report events, in pre-order. -/
theorem actsIn_analyzer (doc : Document) : analyzer.actsIn doc =
    (reported doc.root).map fun place => .report ⟨descriptor, place, [], none, ""⟩ := by
  have hnode (node : Node) :
      ((Actions.of [(Kind.eventDeclaration, [action])] node.kind).flatMap fun a => a doc node) =
        (reported? node).toList.map fun place => .report ⟨descriptor, place, [], none, ""⟩ := by
    rw [Actions.of, Listing.get?_cons, reported?]
    by_cases hevent : node.kind = .eventDeclaration
    · rw [if_pos hevent.symm, if_pos hevent, Option.getD_some, List.flatMap_singleton, action]
      cases misordered? node <;> rfl
    · rw [if_neg (Ne.symm hevent), if_neg hevent]
      rfl
  change (doc.root.preorder.flatMap fun node =>
    (Actions.of [(Kind.eventDeclaration, [action])] node.kind).flatMap fun a => a doc node) = _
  simp only [hnode]
  rw [reported, List.map_flatMap, Node.walk_eq_preorder]

theorem rules_analyzer {options : SeverityOptions} {severity : Severity}
    (h : descriptor.severityUnder options = .ok (some severity)) :
    analyzer.rules options ruleId = some (some severity) := by
  have hfind : (analyzer.supported.reverse.find? fun d => d.id = ruleId) = some descriptor := rfl
  rw [Analyzer.rules, hfind, Option.map_some, h]
  rfl

theorem findings_analyzer {options : SeverityOptions} {severity : Severity}
    (h : descriptor.severityUnder options = .ok (some severity)) (doc : Document) :
    analyzer.findings options doc = (reported doc.root).map (diagnosticAt severity) := by
  have hrules := rules_analyzer h
  have hraised (place : Location) : Act.raised? (analyzer.rules options)
      (.report ⟨descriptor, place, [], none, ""⟩) = none :=
    Act.raised?_report (d := ⟨descriptor, place, [], none, ""⟩) hrules
  have hcollected (place : Location) : Act.collected? analyzer.name (analyzer.rules options)
      (.report ⟨descriptor, place, [], none, ""⟩) = some (diagnosticAt severity place) :=
    Act.collected?_report (d := ⟨descriptor, place, [], none, ""⟩) hrules analyzer.name
  have hfails : ¬ analyzer.Fails options doc := by
    rintro ⟨act, hact, hsome⟩
    rw [actsIn_analyzer] at hact
    obtain ⟨place, -, rfl⟩ := List.mem_map.mp hact
    rw [hraised] at hsome
    cases hsome
  have hreports : (Act.collected? analyzer.name (analyzer.rules options) ∘ fun place =>
      .report ⟨descriptor, place, [], none, ""⟩) = some ∘ diagnosticAt severity := by
    funext place
    rw [Function.comp_apply, Function.comp_apply, hcollected]
  rw [Analyzer.findings_of_not_fails hfails, collected, actsIn_analyzer, List.filterMap_map, hreports,
    List.filterMap_eq_map]

variable {l : Linter} {selection : Option (List String)} {severity : Severity}

/-- An event at the place is reported unless that is suppressed. -/
def visible (l : Linter) (severity : Severity) (place : Location) : Bool :=
  !l.suppressions.silence (diagnosticAt severity place)

/-- The diagnostics of a document when only this rule is on. -/
def diagnosticsOf (l : Linter) (severity : Severity) (doc : Document) : List Diagnostic :=
  ((reported doc.root).filter (visible l severity)).map (diagnosticAt severity)

/-- Running only this analyzer, with its rule on, yields these diagnostics. -/
theorem exists_run (hselected : l.selected selection = [analyzer])
    (hon : descriptor.severityUnder l.options = .ok (some severity)) (doc : Document) {s : Session}
    (hs : s.Quiet) : ∃ results, ((l.run selection doc).runIn s).1 = .ok results ∧
      results.diagnostics = diagnosticsOf l severity doc := by
  have hresolved : ∀ a ∈ l.selected selection, a.Resolved l.options := by
    intro a ha d hd
    rw [hselected, List.mem_singleton] at ha
    subst ha
    obtain rfl : d = descriptor := List.mem_singleton.mp hd
    exact ⟨_, hon⟩
  have hacts : ∀ a ∈ l.selected selection, ∀ act ∈ a.actsIn doc, act.Uncanceling False := by
    intro a ha act hact
    rw [hselected, List.mem_singleton] at ha
    subst ha
    rw [actsIn_analyzer] at hact
    obtain ⟨place, -, rfl⟩ := List.mem_map.mp hact
    trivial
  have hisOn : analyzer.isOn l.options = true :=
    Analyzer.isOn_iff.mpr ⟨ruleId, severity, rules_analyzer hon⟩
  have hrunning : l.running selection = [analyzer] := by
    rw [running, hselected, List.filter_eq_self]
    intro a ha
    rw [List.mem_singleton.mp ha]
    exact hisOn
  obtain ⟨s', hrun, -⟩ := gives_run hresolved hacts s ⟨hs, False.elim⟩
  obtain ⟨hdiagnostics, -⟩ := foldl_withBlock (l.block doc) (l.running selection) .empty
  refine ⟨_, congrArg Prod.fst hrun, hdiagnostics.trans ?_⟩
  have hblock : l.block doc analyzer = diagnosticsOf l severity doc := by
    rw [block, findings_analyzer hon, Suppressions.keep, List.filter_map]
    rfl
  rw [hrunning, List.flatMap_singleton, hblock]
  rfl

end TierHost.EventOrder
