import TierHost.Proofs.Lint.Fix
import TierHost.Proofs.Lint.Ordered
import TierHost.Proofs.Lint.Reports

/-!
Fixing all events in the wrong order, one after another in any order. Every round takes one diagnostic
away, and whichever are picked the last document is the same.
-/

namespace TierHost.EventOrder

open Linter Work
open scoped List

variable {l : Linter} {selection : Option (List String)} {severity : Severity}

/-- One round of fixing: the document is analyzed, and a fix is applied for one of the diagnostics. -/
def FixRound (l : Linter) (selection : Option (List String)) (doc doc' : Document) : Prop :=
  ∃ s results d s' fixed, Session.Quiet s ∧ ((l.run selection doc).runIn s).1 = .ok results ∧
    d ∈ results.diagnostics ∧
    ((applyFix doc d : Work LintError (Option Document)).runIn s').1 = .ok fixed ∧
    doc' = fixed.getD doc

/-- So many rounds, one after another. -/
inductive FixRounds (l : Linter) (selection : Option (List String)) : Nat → Document → Document → Prop
  | none (doc : Document) : FixRounds l selection 0 doc doc
  | next {n : Nat} {doc doc' doc'' : Document} (rounds : FixRounds l selection n doc doc')
      (round : FixRound l selection doc' doc'') : FixRounds l selection (n + 1) doc doc''

theorem mem_diagnosticsOf {doc : Document} {d : Diagnostic} (h : d ∈ diagnosticsOf l severity doc) :
    d.id = ruleId ∧ d.location ∈ (reported doc.root).filter (visible l severity) := by
  obtain ⟨place, hplace, rfl⟩ := List.mem_map.mp h
  exact ⟨rfl, hplace⟩

/-- A round takes one of the diagnostics of the document. -/
theorem fixRound_iff (hselected : l.selected selection = [analyzer])
    (hon : descriptor.severityUnder l.options = .ok (some severity)) {doc doc' : Document} :
    FixRound l selection doc doc' ↔
      ∃ d ∈ diagnosticsOf l severity doc, doc' = (fixFor? doc d).getD doc := by
  constructor
  · rintro ⟨s, results, d, s', fixed, hs, hrun, hd, hfix, rfl⟩
    -- what a run yields depends on the document alone, and so does what the fix makes of it
    obtain ⟨results', hrun', hdiagnostics⟩ := exists_run hselected hon doc hs
    have hresults : results = results' := Except.ok.inj (hrun.symm.trans hrun')
    have hfixed : fixed = fixFor? doc d := Except.ok.inj (hfix.symm.trans (runIn_applyFix doc d s'))
    rw [hresults, hdiagnostics] at hd
    exact ⟨d, hd, by rw [hfixed]⟩
  · rintro ⟨d, hd, rfl⟩
    have hquiet : (Session.start none).Quiet := Session.quiet_of_token rfl
    obtain ⟨results, hrun, hdiagnostics⟩ := exists_run hselected hon doc hquiet
    exact ⟨.start none, results, d, .start none, fixFor? doc d, hquiet, hrun, hdiagnostics ▸ hd,
      runIn_applyFix doc d _, rfl⟩

/-- What rounds keep: the file, distinct nodes, different places of the remove accessors, and the tree
that fixing ends at. One diagnostic is gone after each. -/
structure Fixing (at? : Location → Bool) (doc : Document) (n : Nat) (doc' : Document) : Prop where
  file : doc'.file = doc.file
  ids : doc'.root.ids.Nodup
  removals : (removals doc'.root).Nodup
  ordered : ordered at? doc'.root = ordered at? doc.root
  left : ((reported doc'.root).filter at?).length + n = ((reported doc.root).filter at?).length

/-- The fix for any of the diagnostics applies, and keeps this. -/
theorem Fixing.exists_fixFor? {doc doc' : Document} {n : Nat} {d : Diagnostic}
    (h : Fixing (visible l severity) doc n doc') (hd : d ∈ diagnosticsOf l severity doc') :
    ∃ doc'', fixFor? doc' d = some doc'' ∧ Fixing (visible l severity) doc (n + 1) doc'' := by
  obtain ⟨hid, hplace⟩ := mem_diagnosticsOf hd
  obtain ⟨hreported, hvisible⟩ := List.mem_filter.mp hplace
  have hcount := List.nodup_iff_count_le_one.mp h.removals d.location
  obtain ⟨doc'', hfix⟩ := EventOrder.exists_fixFor? hcount hid hreported
  obtain ⟨hfile, hswaps, hids⟩ := swaps_of_fixFor? h.ids hfix
  refine ⟨doc'', hfix, hfile.trans h.file, hids, hswaps.removals_perm.nodup_iff.mp h.removals,
    (hswaps.ordered_congr hvisible).symm.trans h.ordered, ?_⟩
  -- the swap takes this one place away, which is one of those that count
  have hlength := (hswaps.reported_perm.filter (visible l severity)).length_eq
  rw [List.filter_cons_of_pos hvisible, List.length_cons] at hlength
  have hleft := h.left
  omega

theorem FixRounds.fixing (hselected : l.selected selection = [analyzer])
    (hon : descriptor.severityUnder l.options = .ok (some severity)) {doc doc' : Document} {n : Nat}
    (hids : doc.root.ids.Nodup) (hremovals : (removals doc.root).Nodup)
    (h : FixRounds l selection n doc doc') : Fixing (visible l severity) doc n doc' := by
  induction h with
  | none doc => exact ⟨rfl, hids, hremovals, rfl, rfl⟩
  | @next n doc doc' doc'' _ hround ih =>
    obtain ⟨d, hd, rfl⟩ := (fixRound_iff hselected hon).mp hround
    obtain ⟨doc'', hfix, hfixing⟩ := (ih hids hremovals).exists_fixFor? hd
    rw [hfix]
    exact hfixing

/-- As many rounds as there are diagnostics can be made. -/
theorem exists_fixRounds (hselected : l.selected selection = [analyzer])
    (hon : descriptor.severityUnder l.options = .ok (some severity)) {doc : Document}
    (hids : doc.root.ids.Nodup) (hremovals : (removals doc.root).Nodup) {n : Nat}
    (hn : n ≤ (diagnosticsOf l severity doc).length) : ∃ doc', FixRounds l selection n doc doc' := by
  induction n with
  | zero => exact ⟨doc, .none doc⟩
  | succ n ih =>
    obtain ⟨doc', hrounds⟩ := ih (by omega)
    -- after fewer rounds than that there is a diagnostic left to pick
    have hleft := (hrounds.fixing hselected hon hids hremovals).left
    rw [diagnosticsOf, List.length_map] at hn
    obtain ⟨d, hd⟩ : ∃ d, d ∈ diagnosticsOf l severity doc' := by
      refine List.exists_mem_of_length_pos ?_
      rw [diagnosticsOf, List.length_map]
      omega
    exact ⟨_, hrounds.next ((fixRound_iff hselected hon).mpr ⟨d, hd, rfl⟩)⟩

/-- When as many rounds have been made, the tree is the one that fixing ends at. -/
theorem Fixing.plain_eq {doc doc' : Document} {at? : Location → Bool}
    (h : Fixing at? doc ((reported doc.root).filter at?).length doc') :
    doc'.root.plain = EventOrder.ordered at? doc.root := by
  have hleft := h.left
  have hnone : (reported doc'.root).filter at? = [] := List.length_eq_zero_iff.mp (by omega)
  rw [← h.ordered, ordered_eq_plain]
  intro place hplace
  simpa using List.filter_eq_nil_iff.mp hnone place hplace

/-- Fixing all events in the wrong order takes exactly as many rounds as there are diagnostics at first.
Every round takes one diagnostic away, whichever is picked, and always ends at the same tree. -/
theorem fixAll_converges (hselected : l.selected selection = [analyzer])
    (hon : descriptor.severityUnder l.options = .ok (some severity)) {doc : Document}
    (hids : doc.root.ids.Nodup) (hremovals : (removals doc.root).Nodup) :
    ∃ k, (∀ s : Session, s.Quiet → ∃ results, ((l.run selection doc).runIn s).1 = .ok results ∧
        results.diagnostics.length = k) ∧
      (∀ n doc', FixRounds l selection n doc doc' → n ≤ k ∧
        ∀ s : Session, s.Quiet → ∃ results, ((l.run selection doc').runIn s).1 = .ok results ∧
          results.diagnostics.length = k - n ∧
          ∀ d ∈ results.diagnostics, ∃ doc'', ∀ s',
            ((applyFix doc' d : Work LintError (Option Document)).runIn s').1 = .ok (some doc'')) ∧
      (∃ doc', FixRounds l selection k doc doc') ∧
      ∀ doc₁ doc₂, FixRounds l selection k doc doc₁ → FixRounds l selection k doc doc₂ →
        doc₁.file = doc₂.file ∧ doc₁.root.plain = doc₂.root.plain := by
  have hlength (doc : Document) : (diagnosticsOf l severity doc).length =
      ((reported doc.root).filter (visible l severity)).length := List.length_map _
  refine ⟨(diagnosticsOf l severity doc).length, ?_, ?_, ?_, ?_⟩
  · intro s hs
    obtain ⟨results, hrun, hdiagnostics⟩ := exists_run hselected hon doc hs
    exact ⟨results, hrun, congrArg List.length hdiagnostics⟩
  · intro n doc' hrounds
    have hfixing := hrounds.fixing hselected hon hids hremovals
    have hleft := hfixing.left
    rw [← hlength, ← hlength] at hleft
    refine ⟨by omega, fun s hs => ?_⟩
    obtain ⟨results, hrun, hdiagnostics⟩ := exists_run hselected hon doc' hs
    refine ⟨results, hrun, ?_, fun d hd => ?_⟩
    · rw [hdiagnostics]
      omega
    · rw [hdiagnostics] at hd
      obtain ⟨doc'', hfix, -⟩ := hfixing.exists_fixFor? hd
      exact ⟨doc'', fun s' => hfix ▸ runIn_applyFix doc' d s'⟩
  · exact exists_fixRounds hselected hon hids hremovals (Nat.le_refl _)
  · intro doc₁ doc₂ h₁ h₂
    rw [hlength] at h₁ h₂
    have hfixing₁ := h₁.fixing hselected hon hids hremovals
    have hfixing₂ := h₂.fixing hselected hon hids hremovals
    exact ⟨hfixing₁.file.trans hfixing₂.file.symm, hfixing₁.plain_eq.trans hfixing₂.plain_eq.symm⟩

/-- An event in the wrong order whose remove accessor holds another one. -/
def nestedDocument : Document := ⟨"Clock.cs",
  ⟨0, .eventDeclaration, ⟨"Clock.cs", 3, 5⟩, "Ticked", false,
    [⟨1, .accessorList, ⟨"Clock.cs", 4, 5⟩, "", false,
      [⟨2, .removeAccessor, ⟨"Clock.cs", 5, 9⟩, "", false,
        [⟨3, .eventDeclaration, ⟨"Clock.cs", 6, 13⟩, "Chimed", false,
          [⟨4, .accessorList, ⟨"Clock.cs", 7, 13⟩, "", false,
            [⟨5, .removeAccessor, ⟨"Clock.cs", 8, 17⟩, "", false, []⟩,
              ⟨6, .addAccessor, ⟨"Clock.cs", 9, 17⟩, "", false, []⟩]⟩]⟩]⟩,
        ⟨7, .addAccessor, ⟨"Clock.cs", 12, 9⟩, "", false, []⟩]⟩]⟩⟩

/-- This analyzer alone, with its rule switched on. -/
def eventLinter : Linter := ⟨⟨[(analyzer.name, analyzer)], []⟩, [], [(ruleId, "warning")]⟩

theorem nodup_ids_nestedDocument : nestedDocument.root.ids.Nodup := by
  rw [Node.ids, Node.walk_eq_preorder]
  decide

theorem diagnosticsOf_nestedDocument : diagnosticsOf eventLinter .warning nestedDocument =
    [diagnosticAt .warning ⟨"Clock.cs", 5, 9⟩, diagnosticAt .warning ⟨"Clock.cs", 8, 17⟩] := by
  rw [diagnosticsOf, reported, Node.walk_eq_preorder]
  decide

/-- Whichever of the two events is fixed first, the tree after the second round is the same. -/
theorem fixAll_converges_nested :
    eventLinter.selected none = [analyzer] ∧
      descriptor.severityUnder eventLinter.options = .ok (some .warning) ∧
      nestedDocument.root.ids.Nodup ∧ (removals nestedDocument.root).Nodup ∧
      (∃ doc', FixRounds eventLinter none 2 nestedDocument doc') ∧
      ∀ doc₁ doc₂, FixRounds eventLinter none 2 nestedDocument doc₁ →
        FixRounds eventLinter none 2 nestedDocument doc₂ → doc₁.root.plain = doc₂.root.plain := by
  have hselected : eventLinter.selected none = [analyzer] := rfl
  have hon : descriptor.severityUnder eventLinter.options = .ok (some .warning) := by decide
  have hids := nodup_ids_nestedDocument
  have hremovals : (removals nestedDocument.root).Nodup := by
    rw [removals, Node.walk_eq_preorder]
    decide
  obtain ⟨k, hfirst, -, hrounds, hsame⟩ := fixAll_converges hselected hon hids hremovals
  have hquiet : (Session.start none).Quiet := Session.quiet_of_token rfl
  have hk : k = 2 := by
    obtain ⟨results, hrun, hlength⟩ := hfirst _ hquiet
    obtain ⟨results', hrun', hdiagnostics⟩ := exists_run hselected hon nestedDocument hquiet
    rw [Except.ok.inj (hrun.symm.trans hrun'), hdiagnostics, diagnosticsOf_nestedDocument] at hlength
    exact hlength.symm
  subst hk
  exact ⟨hselected, hon, hids, hremovals, hrounds, fun doc₁ doc₂ h₁ h₂ => (hsame doc₁ doc₂ h₁ h₂).2⟩

end TierHost.EventOrder
