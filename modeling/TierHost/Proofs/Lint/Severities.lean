import TierHost.Proofs.Lint.Acting
import TierHost.Proofs.Listing
import TierHost.Proofs.Mapping
import Mathlib.Data.List.Induction

/-!
The rules of an analyzer under severity options. When the options name severities, every rule has one or
is off, and of two rules with one identifier the later one counts.
-/

namespace TierHost

/-- The option names a severity, or leaves a rule the one it has. -/
def Severity.Recognised (value : String) : Prop :=
  Text.lower (Text.trim value) = "default" ∨
    ∃ e ∈ Severity.options, e.1 = Text.lower (Text.trim value)

def SeverityOptions.Recognised (options : SeverityOptions) : Prop :=
  ∀ id value, options.get? id = some value → Severity.Recognised value

theorem SeverityOptions.recognised_singleton {id value : String} (h : Severity.Recognised value) :
    SeverityOptions.Recognised [(id, value)] := by
  intro id' value' hget
  have hmem : (id', value') ∈ [(id, value)] := Listing.mem_of_get? hget
  obtain ⟨-, rfl⟩ := Prod.mk.inj (List.mem_singleton.mp hmem)
  exact h

variable {options : SeverityOptions}

/-- The severity of a rule is known exactly if its option, if there is one, names a severity. -/
theorem Descriptor.exists_severityUnder_iff (d : Descriptor) :
    (∃ severity, d.severityUnder options = .ok severity) ↔
      ∀ value, options.get? d.id = some value → Severity.Recognised value := by
  have hvalue : (∀ value, options.get? d.id = some value → Severity.Recognised value) ↔
      Severity.Recognised ((options.get? d.id).getD "default") := by
    cases options.get? d.id with
    | none =>
      refine ⟨fun _ => Or.inl (by decide), fun _ value h => ?_⟩
      cases h
    | some value =>
      refine ⟨fun h => h value rfl, fun h value' h' => ?_⟩
      rwa [← Option.some.inj h']
  rw [hvalue, severityUnder, Severity.Recognised]
  generalize Text.lower (Text.trim ((options.get? d.id).getD "default")) = value
  by_cases hdefault : value = "default"
  · simp only [hdefault, if_true, Except.ok.injEq, exists_eq', true_or]
  · rw [or_iff_right hdefault]
    simp only [hdefault, if_false]
    cases hfind : Severity.options.find? fun e => e.1 = value with
    | some e =>
      have hmem : e ∈ Severity.options := List.mem_of_find?_eq_some hfind
      have hname : e.1 = value := by simpa using List.find?_some hfind
      exact ⟨fun _ => ⟨e, hmem, hname⟩, fun _ => ⟨e.2, rfl⟩⟩
    | none =>
      refine ⟨fun ⟨_, h⟩ => ?_, fun ⟨e, he, hname⟩ => ?_⟩
      · cases h
      · have hne : ¬ e.1 = value := by simpa using List.find?_eq_none.mp hfind e he
        exact absurd hname hne

namespace Analyzer

/-- The rules that an analyzer supports under the options; of two with one identifier the later one
counts. -/
def rules (a : Analyzer) (options : SeverityOptions) : Rules := fun id =>
  (a.supported.reverse.find? fun d => d.id = id).map fun d => (d.severityUnder options).toOption.join

/-- The severities of all rules that the analyzer supports are known. -/
def Resolved (a : Analyzer) (options : SeverityOptions) : Prop :=
  ∀ d ∈ a.supported, ∃ severity, d.severityUnder options = .ok severity

/-- Some rule that the analyzer supports is not off. -/
def isOn (a : Analyzer) (options : SeverityOptions) : Bool :=
  a.supported.any fun d => (a.rules options d.id).join.isSome

theorem resolved_of_recognised (h : options.Recognised) (a : Analyzer) : a.Resolved options :=
  fun d _ => d.exists_severityUnder_iff.mpr (h d.id)

theorem isOn_iff {a : Analyzer} :
    a.isOn options = true ↔ ∃ id severity, a.rules options id = some (some severity) := by
  rw [isOn, List.any_eq_true]
  constructor
  · rintro ⟨d, -, hd⟩
    obtain ⟨severity, hseverity⟩ := Option.isSome_iff_exists.mp hd
    exact ⟨d.id, severity, Option.join_eq_some_iff.mp hseverity⟩
  · rintro ⟨id, severity, hrule⟩
    obtain ⟨d, hfind, -⟩ := Option.map_eq_some_iff.mp hrule
    have hmem : d ∈ a.supported := List.mem_reverse.mp (List.mem_of_find?_eq_some hfind)
    have hid : d.id = id := by simpa using List.find?_some hfind
    refine ⟨d, hmem, ?_⟩
    rw [hid, hrule]
    rfl

end Analyzer

namespace Linter

/-- Putting rules into a dictionary one after another makes it the lookup of the last one with an
identifier. -/
theorem exists_foldlM_put {ds : List Descriptor}
    (h : ∀ d ∈ ds, ∃ severity, d.severityUnder options = .ok severity) :
    ∃ sev : Severities,
      ds.foldlM (fun l d => do return Listing.put d.id (← d.severityUnder options) l) [] = .ok sev ∧
      sev.keys.Nodup ∧
      ∀ id, sev.get? id = (ds.reverse.find? fun d => d.id = id).map fun d =>
        (d.severityUnder options).toOption.join := by
  -- from the right, because the last rule with an identifier is the one that counts
  induction ds using List.reverseRecOn with
  | nil => exact ⟨[], rfl, List.nodup_nil, fun _ => rfl⟩
  | append_singleton ds d ih =>
    obtain ⟨sev, hsev, hnodup, hget⟩ := ih fun d' hd' => h d' (List.mem_append_left _ hd')
    obtain ⟨severity, hseverity⟩ := h d (List.mem_append_right _ (List.mem_singleton_self d))
    refine ⟨Listing.put d.id severity sev, ?_, Listing.nodup_keys_put hnodup _ _, ?_⟩
    · rw [List.foldlM_append, except_bind_eq_ok]
      refine ⟨sev, hsev, ?_⟩
      rw [List.foldlM_cons, hseverity]
      rfl
    · intro id
      rw [Listing.get?_put, hget id, List.reverse_append, List.reverse_singleton,
        List.singleton_append, List.find?_cons]
      by_cases hid : d.id = id
      · simp [hid, hseverity, Except.toOption]
      · simp [hid]

theorem all_isNone_iff {sev : Severities} (h : sev.keys.Nodup) :
    (sev.all fun e => e.2.isNone) = true ↔ ∀ id severity, sev.get? id ≠ some (some severity) := by
  rw [List.all_eq_true]
  constructor
  · intro hall id severity hget
    have hmem : (id, some severity) ∈ sev := Listing.mem_of_get? hget
    exact absurd (hall _ hmem) Bool.false_ne_true
  · rintro hnone ⟨id, _ | severity⟩ hmem
    · rfl
    · exact absurd (Listing.get?_of_mem h hmem) (hnone id severity)

/-- The severities of an analyzer, if all are known, are its rules, and they are all off unless the
analyzer is on. -/
theorem exists_severities {a : Analyzer} (h : a.Resolved options) :
    ∃ sev, severities options a = .ok sev ∧ sev.get? = a.rules options ∧
      ((sev.all fun e => e.2.isNone) = true ↔ ¬ a.isOn options = true) := by
  obtain ⟨sev, hsev, hnodup, hget⟩ := exists_foldlM_put h
  have hrules : sev.get? = a.rules options := funext hget
  refine ⟨sev, hsev, hrules, ?_⟩
  rw [all_isNone_iff hnodup, Analyzer.isOn_iff, hrules]
  push Not
  rfl

end Linter

end TierHost
