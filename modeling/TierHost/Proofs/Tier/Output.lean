import TierHost.Proofs.Listing
import TierHost.Proofs.Tier.Cancellation

/-!
Histories of an output. A batch is added as its texts one by one would be, or not at all, and whatever
is asked of an output, what it holds stays where it is.
-/

namespace TierHost

namespace Output

variable {o o' : Output} {texts : List (String × String)} {f : Failure}

/-- Adds texts one after another, up to the first that fails. -/
def addEach (o : Output) (texts : List (String × String)) : Except Failure Output :=
  texts.foldlM (fun o entry => o.add entry.1 entry.2) o

theorem hints_append (o : Output) (texts : List (String × String)) :
    hints ⟨o.entries ++ texts⟩ = o.hints ++ texts.map Prod.fst := Listing.keys_append _ _

/-- A text goes to the end, unless its hint is in use. -/
theorem add_eq (o : Output) (hint text : String) : o.add hint text =
    if hint ∈ o.hints then .error (.duplicateHint hint) else .ok ⟨o.entries ++ [(hint, text)]⟩ := by
  rw [add, has]
  by_cases h : hint ∈ o.hints
  · rw [if_pos (List.contains_iff_mem.mpr h), if_pos h]
  · have habsent : ¬ o.hints.contains hint = true := fun hc => h (List.contains_iff_mem.mp hc)
    rw [if_neg habsent, if_neg h, Listing.put_of_notMem h]

theorem addEach_cons (o : Output) (entry : String × String) (texts : List (String × String)) :
    o.addEach (entry :: texts) = o.add entry.1 entry.2 >>= fun o' => o'.addEach texts :=
  List.foldlM_cons

/-- Adding one by one succeeds exactly for texts under different hints that are all new. -/
theorem addEach_eq_ok_iff : o.addEach texts = .ok o' ↔
    (texts.map Prod.fst).Nodup ∧ (∀ entry ∈ texts, entry.1 ∉ o.hints) ∧
      o' = ⟨o.entries ++ texts⟩ := by
  induction texts generalizing o with
  | nil =>
    rw [List.append_nil]
    refine ⟨fun h => ⟨List.nodup_nil, fun _ he => absurd he List.not_mem_nil, ?_⟩, fun h => ?_⟩
    · cases h
      rfl
    · rw [h.2.2]
      rfl
  | cons entry texts ih =>
    rw [addEach_cons, add_eq, List.map_cons, List.nodup_cons, List.forall_mem_cons]
    by_cases hin : entry.1 ∈ o.hints
    · rw [if_pos hin]
      refine ⟨fun h => ?_, fun h => absurd hin h.2.1.1⟩
      cases h
    · rw [if_neg hin]
      -- the first hint is in use from here on, so the others have to differ from it
      have hrest : (⟨o.entries ++ [entry]⟩ : Output).addEach texts = .ok o' ↔
          (texts.map Prod.fst).Nodup ∧ (∀ e ∈ texts, e.1 ∉ o.hints ∧ e.1 ≠ entry.1) ∧
            o' = ⟨o.entries ++ entry :: texts⟩ := by
        rw [ih, hints_append, List.append_assoc, List.singleton_append]
        simp only [List.map_cons, List.map_nil, List.mem_append, List.mem_singleton, not_or]
      have hfresh : (∀ e ∈ texts, e.1 ≠ entry.1) ↔ entry.1 ∉ texts.map Prod.fst := by
        simp only [List.mem_map, not_exists, not_and]
      refine hrest.trans ?_
      rw [forall₂_and, hfresh]
      constructor
      · rintro ⟨hnodup, ⟨hnew, hne⟩, he⟩
        exact ⟨⟨hne, hnodup⟩, ⟨hin, hnew⟩, he⟩
      · rintro ⟨⟨hne, hnodup⟩, ⟨-, hnew⟩, he⟩
        exact ⟨hnodup, ⟨hnew, hne⟩, he⟩

/-- Adding one by one fails at the first text whose hint is in use by then. -/
theorem addEach_eq_error (h : o.addEach texts = .error f) :
    ∃ before entry after o', texts = before ++ entry :: after ∧ o.addEach before = .ok o' ∧
      o'.add entry.1 entry.2 = .error f ∧ f = .duplicateHint entry.1 := by
  induction texts generalizing o with
  | nil => cases h
  | cons entry texts ih =>
    rw [addEach_cons] at h
    cases hadd : o.add entry.1 entry.2 with
    | error f' =>
      rw [hadd] at h
      obtain rfl : f' = f := Except.error.inj h
      refine ⟨[], entry, texts, o, rfl, rfl, hadd, ?_⟩
      rw [add_eq] at hadd
      by_cases hin : entry.1 ∈ o.hints
      · rw [if_pos hin] at hadd
        exact (Except.error.inj hadd).symm
      · rw [if_neg hin] at hadd
        cases hadd
    | ok o₁ =>
      rw [hadd] at h
      obtain ⟨before, entry', after, o', rfl, hbefore, hfail, hf⟩ := ih h
      refine ⟨entry :: before, entry', after, o', rfl, ?_, hfail, hf⟩
      rw [addEach_cons, hadd]
      exact hbefore

/-- Staging texts and then putting the batch in is adding them one by one to the output with what has
been staged before. -/
theorem map_foldlM_stage {batch : Listing String String} (hnodup : batch.keys.Nodup)
    (hnew : ∀ hint ∈ batch.keys, hint ∉ o.hints) (texts : List (String × String)) :
    (texts.foldlM o.stage batch).map
        (fun batch => (⟨batch.foldl (fun entries e => entries.put e.1 e.2) o.entries⟩ : Output)) =
      addEach ⟨o.entries ++ batch⟩ texts := by
  induction texts generalizing batch with
  | nil =>
    have hput := Listing.foldl_put_eq_append hnodup hnew
    exact congrArg (fun entries => (Except.ok ⟨entries⟩ : Except Failure Output)) hput
  | cons entry texts ih =>
    have hhints : entry.1 ∈ hints ⟨o.entries ++ batch⟩ ↔ entry.1 ∈ o.hints ∨ entry.1 ∈ batch.keys := by
      rw [hints_append, List.mem_append]
      rfl
    rw [addEach_cons, add_eq, List.foldlM_cons, stage, has]
    by_cases hin : entry.1 ∈ o.hints ∨ entry.1 ∈ batch.keys
    · have hused : (o.hints.contains entry.1 || batch.keys.contains entry.1) = true := by
        simpa only [Bool.or_eq_true, List.contains_iff_mem] using hin
      rw [if_pos hused, if_pos (hhints.mpr hin)]
      rfl
    · have hfree : ¬ (o.hints.contains entry.1 || batch.keys.contains entry.1) = true := by
        simpa only [Bool.or_eq_true, List.contains_iff_mem] using hin
      obtain ⟨hout, hbatch⟩ := not_or.mp hin
      rw [if_neg hfree, if_neg fun h => hin (hhints.mp h), Listing.put_of_notMem hbatch,
        List.append_assoc]
      refine ih ?_ ?_
      · rw [← Listing.put_of_notMem hbatch entry.2]
        exact Listing.nodup_keys_put hnodup entry.1 entry.2
      · intro hint hmem
        rw [Listing.keys_append, List.mem_append] at hmem
        rcases hmem with hmem | hmem
        · exact hnew hint hmem
        · rw [List.mem_singleton.mp hmem]
          exact hout

/-- A batch is added as its texts would be one by one, and fails where that fails. -/
theorem addAll_eq_addEach (o : Output) (texts : List (String × String)) :
    o.addAll texts = o.addEach texts := by
  have hnodup : (Listing.keys ([] : Listing String String)).Nodup := List.nodup_nil
  have hnew : ∀ hint ∈ Listing.keys ([] : Listing String String), hint ∉ o.hints := fun hint hmem =>
    absurd hmem List.not_mem_nil
  have hstaged := map_foldlM_stage hnodup hnew texts
  rw [List.append_nil] at hstaged
  rw [← hstaged, addAll]
  cases texts.foldlM o.stage [] <;> rfl

/-- What may be asked of an output: to add a text, to add a batch, or to take what the generator
delivers, with a cache of its own in any state. -/
inductive Request where
  | add (hint text : String)
  | addAll (texts : List (String × String))
  | execute (cache : Option RunCache) (config : Config) (c : Compilation) (s : Session)

namespace Request

/-- The output after an attempt to add something, which is the one before if that failed. -/
def settle (o : Output) : Except Failure Output → Except RunError Unit × Output
  | .ok o' => (.ok (), o')
  | .error f => (.error (.failed f), o)

/-- What a request comes to, and the output after it. -/
def run (o : Output) : Request → Except RunError Unit × Output
  | .add hint text => settle o (o.add hint text)
  | .addAll texts => settle o (o.addAll texts)
  | .execute cache config c s =>
    let (outcome, host) := ((Generator.execute ⟨cache, o⟩ config c).run s).1
    (outcome, host.output)

/-- A request fails and leaves the output as it was, or puts texts under new hints at its end. -/
theorem run_cases (o : Output) (r : Request) :
    (∃ e, r.run o = (.error e, o)) ∨
      ∃ texts, r.run o = (.ok (), ⟨o.entries ++ texts⟩) ∧ (texts.map Prod.fst).Nodup ∧
        ∀ entry ∈ texts, entry.1 ∉ o.hints := by
  have hadd (texts : List (String × String)) (added : Except Failure Output)
      (h : added = o.addEach texts) :
      (∃ e, settle o added = (.error e, o)) ∨
        ∃ texts, settle o added = (.ok (), ⟨o.entries ++ texts⟩) ∧ (texts.map Prod.fst).Nodup ∧
          ∀ entry ∈ texts, entry.1 ∉ o.hints := by
    cases added with
    | error f => exact Or.inl ⟨.failed f, rfl⟩
    | ok o' =>
      obtain ⟨hnodup, hnew, rfl⟩ := addEach_eq_ok_iff.mp h.symm
      exact Or.inr ⟨texts, rfl, hnodup, hnew⟩
  cases r with
  | add hint text =>
    refine hadd [(hint, text)] _ ?_
    rw [addEach_cons]
    cases o.add hint text <;> rfl
  | addAll texts => exact hadd texts _ (addAll_eq_addEach o texts)
  | execute cache config c s =>
    rcases Generator.execute_cases ⟨cache, o⟩ config c s with
      ⟨e, h, hrun, houtput⟩ | ⟨texts, h, hrun, houtput⟩
    · left
      refine ⟨e, ?_⟩
      rw [run, hrun]
      exact Prod.ext rfl houtput
    · right
      rw [addAll_eq_addEach, addEach_eq_ok_iff] at houtput
      obtain ⟨hnodup, hnew, he⟩ := houtput
      refine ⟨texts, ?_, hnodup, hnew⟩
      rw [run, hrun]
      exact Prod.ext rfl he

end Request

/-- The output after requests one after another, failing or not. -/
def after (o : Output) (requests : List Request) : Output :=
  requests.foldl (fun o r => (r.run o).2) o

theorem after_append (o : Output) (requests more : List Request) :
    o.after (requests ++ more) = (o.after requests).after more := List.foldl_append

/-- What an output holds stays in front of what is added later. -/
theorem prefix_after (o : Output) (requests : List Request) :
    o.entries <+: (o.after requests).entries := by
  induction requests generalizing o with
  | nil => exact List.prefix_refl _
  | cons r requests ih =>
    refine List.IsPrefix.trans ?_ (ih (r.run o).2)
    rcases r.run_cases o with ⟨e, hrun⟩ | ⟨texts, hrun, -, -⟩
    · rw [hrun]
    · rw [hrun]
      exact List.prefix_append _ _

theorem nodup_hints_after (h : o.hints.Nodup) (requests : List Request) :
    (o.after requests).hints.Nodup := by
  induction requests generalizing o with
  | nil => exact h
  | cons r requests ih =>
    apply ih
    show (r.run o).2.hints.Nodup
    rcases r.run_cases o with ⟨e, hrun⟩ | ⟨texts, hrun, hnodup, hnew⟩
    · rwa [hrun]
    · rw [hrun, hints_append]
      refine h.append hnodup ?_
      intro hint hin hmem
      obtain ⟨entry, hentry, rfl⟩ := List.mem_map.mp hmem
      exact hnew entry hentry hin

/-- An output only ever grows at its end, under hints that stay different, and a request that fails
leaves it as it was. A batch is added exactly if its hints are different from one another and from those
in use, and then as its texts one by one. If not, the failure names the hint of the first text that could
not have been added any more. -/
theorem after_append_only (requests : List Request) :
    let o := empty.after requests
    o.hints.Nodup ∧ (∀ more, o.entries <+: (empty.after (requests ++ more)).entries) ∧
    (∀ (r : Request) e, (r.run o).1 = .error e → (r.run o).2 = o) ∧
    ∀ texts,
      (((Request.addAll texts).run o).1 = .ok () ↔
        (texts.map Prod.fst).Nodup ∧ ∀ entry ∈ texts, entry.1 ∉ o.hints) ∧
      (((Request.addAll texts).run o).1 = .ok () →
        o.addEach texts = .ok ((Request.addAll texts).run o).2) ∧
      (((Request.addAll texts).run o).1 ≠ .ok () →
        ∃ before entry rest o', texts = before ++ entry :: rest ∧ o.addEach before = .ok o' ∧
          o'.add entry.1 entry.2 = .error (.duplicateHint entry.1) ∧
          (Request.addAll texts).run o = (.error (.failed (.duplicateHint entry.1)), o)) := by
  intro o
  have hempty : empty.hints.Nodup := List.nodup_nil
  refine ⟨nodup_hints_after hempty requests, ?_, ?_, ?_⟩
  · intro more
    rw [after_append]
    exact prefix_after _ more
  · intro r e he
    rcases r.run_cases o with ⟨e', hrun⟩ | ⟨texts, hrun, -, -⟩
    · rw [hrun]
    · rw [hrun] at he
      cases he
  · intro texts
    rw [Request.run, addAll_eq_addEach]
    cases hadd : o.addEach texts with
    | ok o' =>
      obtain ⟨hnodup, hnew, -⟩ := addEach_eq_ok_iff.mp hadd
      exact ⟨⟨fun _ => ⟨hnodup, hnew⟩, fun _ => rfl⟩, fun _ => rfl, fun h => absurd rfl h⟩
    | error f =>
      obtain ⟨before, entry, rest, o', htexts, hbefore, hfail, rfl⟩ := addEach_eq_error hadd
      have hnot : ¬ ((texts.map Prod.fst).Nodup ∧ ∀ entry ∈ texts, entry.1 ∉ o.hints) := by
        intro h
        rw [addEach_eq_ok_iff.mpr ⟨h.1, h.2, rfl⟩] at hadd
        cases hadd
      refine ⟨⟨fun h => ?_, fun h => absurd h hnot⟩, fun h => ?_, fun _ => ?_⟩
      · cases h
      · cases h
      · exact ⟨before, entry, rest, o', htexts, hbefore, hfail, rfl⟩

end Output

end TierHost
