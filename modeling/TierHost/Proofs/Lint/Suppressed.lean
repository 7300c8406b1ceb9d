import TierHost.Lint.Run
import TierHost.Proofs.Host.Polls
import TierHost.Proofs.Listing
import Mathlib.Data.List.Induction

/-!
Suppressed diagnostics. The groups of a table stand for the suppressions that were added, in whatever
order, and a run with suppressions yields what it yields without them, less what they silence.
-/

namespace TierHost

/-- What a suppression silences: diagnostics of its rule, or of every rule, everywhere or in the files
that its pattern covers. -/
def Suppression.Silences (d : Diagnostic) : Suppression → Prop
  | .everywhere id => id = d.id ∨ id = "*"
  | .inFiles id pattern => (id = d.id ∨ id = "*") ∧
      (pattern = d.location.file ∨ pattern.toList <:+ d.location.file.toList ∨
        Text.matchesWildcard pattern d.location.file = true)

instance (d : Diagnostic) (c : Suppression) : Decidable (c.Silences d) :=
  match c with
  | .everywhere _ => inferInstanceAs (Decidable (_ ∨ _))
  | .inFiles _ _ => inferInstanceAs (Decidable ((_ ∨ _) ∧ (_ ∨ _ ∨ _)))

/-- Whether one of some suppressions silences a diagnostic. -/
def Suppressions.Silenced (s : Suppressions) (d : Diagnostic) : Prop := ∃ c ∈ s, c.Silences d

instance (s : Suppressions) (d : Diagnostic) : Decidable (s.Silenced d) :=
  inferInstanceAs (Decidable (∃ c ∈ s, c.Silences d))

namespace SuppressionTable

variable {t : SuppressionTable} {id rule pattern path : String}

theorem holds_iff {group : List String} :
    holds group rule = true ↔ ∃ id ∈ group, id = rule ∨ id = "*" := by
  rw [holds, Bool.or_eq_true, List.contains_iff_mem, List.contains_iff_mem]
  constructor
  · intro h
    rcases h with h | h
    · exact ⟨rule, h, Or.inl rfl⟩
    · exact ⟨"*", h, Or.inr rfl⟩
  · intro h
    obtain ⟨id, hid, rfl | rfl⟩ := h
    · exact Or.inl hid
    · exact Or.inr hid

theorem covers_iff : covers pattern path = true ↔ pattern = path ∨
    pattern.toList <:+ path.toList ∨ Text.matchesWildcard pattern path = true := by
  rw [covers, Bool.or_eq_true, Bool.or_eq_true, decide_eq_true_eq, List.isSuffixOf_iff_suffix,
    or_assoc]

/-- The table stands for these suppressions: the group of everywhere and that of each pattern hold the
rules that they name, and no pattern has two groups. -/
structure StandsFor (t : SuppressionTable) (s : Suppressions) : Prop where
  nodup : t.inFiles.keys.Nodup
  everywhere : ∀ id, id ∈ t.everywhere ↔ .everywhere id ∈ s
  inFiles : ∀ id pattern, id ∈ t.under pattern ↔ .inFiles id pattern ∈ s

theorem under_add_inFiles (t : SuppressionTable) (id pattern pattern' : String) :
    (t.add (.inFiles id pattern)).under pattern' =
      if pattern = pattern' then id :: t.under pattern else t.under pattern' := by
  rw [under, add, Listing.get?_put]
  by_cases h : pattern = pattern'
  · rw [if_pos h, if_pos h, Option.getD_some]
  · rw [if_neg h, if_neg h, under]

/-- One more suppression is one more that the table stands for. -/
theorem StandsFor.add {s : Suppressions} (h : t.StandsFor s) (c : Suppression) :
    (t.add c).StandsFor (s ++ [c]) := by
  cases c with
  | everywhere id =>
    refine ⟨h.nodup, ?_, ?_⟩
    · intro id'
      rw [SuppressionTable.add, List.mem_cons, h.everywhere, or_comm]
      simp
    · intro id' pattern
      change id' ∈ t.under pattern ↔ _
      rw [h.inFiles]
      simp
  | inFiles id pattern =>
    refine ⟨Listing.nodup_keys_put h.nodup _ _, ?_, ?_⟩
    · intro id'
      rw [SuppressionTable.add, h.everywhere]
      simp
    · intro id' pattern'
      -- the group of this pattern holds one rule more, and the others what they held
      rw [under_add_inFiles]
      by_cases hp : pattern = pattern'
      · rw [if_pos hp, List.mem_cons, h.inFiles, or_comm, hp]
        simp
      · rw [if_neg hp, h.inFiles]
        simp [Ne.symm hp]

/-- The rules under a pattern are those of its entry. -/
theorem mem_under_iff (h : t.inFiles.keys.Nodup) :
    id ∈ t.under pattern ↔ ∃ group, (pattern, group) ∈ t.inFiles ∧ id ∈ group := by
  rw [under]
  constructor
  · intro hid
    cases hget : t.inFiles.get? pattern with
    | none =>
      rw [hget] at hid
      exact absurd hid List.not_mem_nil
    | some group =>
      rw [hget] at hid
      exact ⟨group, Listing.mem_of_get? hget, hid⟩
  · intro hgroup
    obtain ⟨group, hmem, hid⟩ := hgroup
    rw [Listing.get?_of_mem h hmem]
    exact hid

/-- Some group silences a diagnostic if and only if some rule under some pattern does. -/
theorem any_group_iff (h : t.inFiles.keys.Nodup) (d : Diagnostic) :
    (t.inFiles.any fun group => holds group.2 d.id && covers group.1 d.location.file) = true ↔
      ∃ id pattern, id ∈ t.under pattern ∧ Suppression.Silences d (.inFiles id pattern) := by
  rw [List.any_eq_true]
  constructor
  · intro hgroup
    obtain ⟨⟨pattern, group⟩, hmem, hd⟩ := hgroup
    rw [Bool.and_eq_true, holds_iff, covers_iff] at hd
    obtain ⟨⟨id, hid, hrule⟩, hfile⟩ := hd
    exact ⟨id, pattern, (mem_under_iff h).mpr ⟨group, hmem, hid⟩, hrule, hfile⟩
  · intro hunder
    obtain ⟨id, pattern, hid, hrule, hfile⟩ := hunder
    obtain ⟨group, hmem, hid⟩ := (mem_under_iff h).mp hid
    refine ⟨(pattern, group), hmem, ?_⟩
    rw [Bool.and_eq_true, holds_iff, covers_iff]
    exact ⟨⟨id, hid, hrule⟩, hfile⟩

theorem StandsFor.silences_iff {s : Suppressions} (h : t.StandsFor s) (d : Diagnostic) :
    t.silences d = true ↔ ∃ c ∈ s, c.Silences d := by
  rw [silences, Bool.or_eq_true, holds_iff, any_group_iff h.nodup]
  constructor
  · intro hd
    rcases hd with ⟨id, hid, hrule⟩ | ⟨id, pattern, hid, hd⟩
    · exact ⟨.everywhere id, (h.everywhere id).mp hid, hrule⟩
    · exact ⟨.inFiles id pattern, (h.inFiles id pattern).mp hid, hd⟩
  · intro hd
    obtain ⟨c, hc, hd⟩ := hd
    cases c with
    | everywhere id => exact Or.inl ⟨id, (h.everywhere id).mpr hc, hd⟩
    | inFiles id pattern => exact Or.inr ⟨id, pattern, (h.inFiles id pattern).mpr hc, hd⟩

end SuppressionTable

namespace Suppressions

theorem table_standsFor (s : Suppressions) : s.table.StandsFor s := by
  induction s using List.reverseRecOn with
  | nil =>
    refine ⟨List.nodup_nil, ?_, ?_⟩
    · intro id
      exact iff_of_false List.not_mem_nil List.not_mem_nil
    · intro id pattern
      exact iff_of_false List.not_mem_nil List.not_mem_nil
  | append_singleton s c ih =>
    have htable : table (s ++ [c]) = (table s).add c := List.foldl_concat _ _ _ _
    rw [htable]
    exact ih.add c

theorem silence_iff (s : Suppressions) (d : Diagnostic) :
    s.silence d = true ↔ ∃ c ∈ s, c.Silences d :=
  s.table_standsFor.silences_iff d

theorem silence_mono {s s' : Suppressions} (h : s ⊆ s') {d : Diagnostic} (hd : s.silence d = true) :
    s'.silence d = true := by
  obtain ⟨c, hc, hsilences⟩ := (s.silence_iff d).mp hd
  exact (s'.silence_iff d).mpr ⟨c, h hc, hsilences⟩

theorem keep_nil (ds : List Diagnostic) : keep [] ds = ds := List.filter_true ds

theorem silence_eq_decide (s : Suppressions) (d : Diagnostic) :
    s.silence d = decide (s.Silenced d) :=
  Bool.eq_iff_iff.mpr ((s.silence_iff d).trans decide_eq_true_iff.symm)

/-- What is kept is what none of the suppressions silences. -/
theorem keep_eq_filter (s : Suppressions) (ds : List Diagnostic) :
    s.keep ds = ds.filter fun d => ¬ s.Silenced d := by
  rw [keep]
  apply List.filter_congr
  intro d _
  rw [silence_eq_decide, decide_not]

end Suppressions

namespace Results

/-- Results less what suppressions silence, among all diagnostics and in every analyzer's block. -/
def keep (s : Suppressions) (r : Results) : Results :=
  { r with
    diagnostics := s.keep r.diagnostics
    byAnalyzer := r.byAnalyzer.map fun e => (e.1, s.keep e.2) }

theorem keep_addBlock (s : Suppressions) (r : Results) (name : String) (block : List Diagnostic)
    (time : Binary64) :
    (r.addBlock name block time).keep s = (r.keep s).addBlock name (s.keep block) time := by
  rw [keep, addBlock, addBlock, Listing.map_put, Suppressions.keep, List.filter_append]
  rfl

end Results

namespace Work

variable {ε α β : Type}

/-- If every step can be followed by `g`, so can all of them. -/
theorem foldlM_map {f f' : β → α → Work ε β} {g : β → β} (h : ∀ b a, f (g b) a = g <$> f' b a)
    (as : List α) (b : β) : as.foldlM f (g b) = g <$> as.foldlM f' b := by
  induction as generalizing b with
  | nil => exact (map_pure g b).symm
  | cons a as ih =>
    rw [List.foldlM_cons, List.foldlM_cons, h, bind_map_left, map_bind]
    exact bind_congr ih

end Work

namespace Linter

open Work

variable {l : Linter}

/-- What one analyzer adds to results is what it adds without suppressions, less what they silence. -/
theorem runAnalyzer_keep (doc : Document) (r : Results) (a : Analyzer) :
    l.runAnalyzer doc (r.keep l.suppressions) a =
      Results.keep l.suppressions <$>
        ({ l with suppressions := [] } : Linter).runAnalyzer doc r a := by
  -- up to the last step neither run looks at its results or its suppressions
  rw [runAnalyzer, runAnalyzer, map_bind]
  apply bind_congr
  intro _
  cases severities l.options a with
  | error e => rfl
  | ok sev =>
    dsimp only
    by_cases hoff : (sev.all fun e => e.2.isNone) = true
    · rw [if_pos hoff, if_pos hoff, map_bind]
      apply bind_congr
      intro _
      rw [map_pure]
    · rw [if_neg hoff, if_neg hoff, map_bind]
      apply bind_congr
      intro found
      rw [map_pure, Results.keep_addBlock, Suppressions.keep_nil]

theorem run_keep (l : Linter) (selection : Option (List String)) (doc : Document) :
    l.run selection doc =
      Results.keep l.suppressions <$>
        ({ l with suppressions := [] } : Linter).run selection doc := by
  rw [run, run, map_bind]
  apply bind_congr
  intro as
  exact foldlM_map (runAnalyzer_keep doc) as .empty

end Linter

/-- What suppressions silence is what one of them silences, so that neither their order nor repeating
them matters and adding some only silences more. A run with suppressions ends as the one without them
does, with the diagnostics that they do not silence, among all of them and for each analyzer. -/
theorem suppressions_filter_runs (s : Suppressions) :
    (∀ d, s.silence d = true ↔ ∃ c ∈ s, c.Silences d) ∧
      (∀ s' : Suppressions, (∀ c, c ∈ s' ↔ c ∈ s) → s'.silence = s.silence) ∧
      (∀ (more : Suppressions) d, s.silence d = true → Suppressions.silence (s ++ more) d = true) ∧
      ∀ registry options selection doc session,
        let whole := ((Linter.mk registry [] options).run selection doc).runIn session
        ((Linter.mk registry s options).run selection doc).runIn session =
          (whole.1.map fun r =>
            { r with
              diagnostics := r.diagnostics.filter fun d => !s.silence d
              byAnalyzer := r.byAnalyzer.map fun e => (e.1, e.2.filter fun d => !s.silence d) },
            whole.2) := by
  refine ⟨s.silence_iff, ?_, ?_, ?_⟩
  · intro s' hsame
    funext d
    rw [Bool.eq_iff_iff]
    exact ⟨Suppressions.silence_mono fun c => (hsame c).mp,
      Suppressions.silence_mono fun c => (hsame c).mpr⟩
  · intro more d
    exact Suppressions.silence_mono (List.subset_append_left s more)
  · intro registry options selection doc session
    have hrun := Linter.run_keep ⟨registry, s, options⟩ selection doc
    rw [hrun]
    exact Work.runIn_map _ _ session

end TierHost
