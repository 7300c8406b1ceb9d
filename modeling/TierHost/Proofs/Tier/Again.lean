import TierHost.Proofs.Tier.Token

/-!
The tiers above over what a run emits. A class whose simple name holds the token of its tier is
mirrored by the next, and what is emitted for it holds the next token, so that a line of classes,
each the base of the next, goes up through all the tiers.
-/

namespace TierHost

namespace Generator

variable {config : Config} {c : Compilation} {s : Session} {sources : List Source} {src : Source}

/-- A run that is not cancelled emits the source. -/
def Emits (config : Config) (c : Compilation) (src : Source) : Prop :=
  ∃ s sources, Session.Quiet s ∧ ((run config c).runIn s).1 = .ok sources ∧ src ∈ sources

/-- Loaded compilations of the tiers from `n` to `n + m`, each over an assembly that exports all the
classes emitted for the tier below. -/
structure Tower (config : Config) (n m : Nat) (tiers : Nat → Compilation) : Prop where
  loaded : ∀ i ≤ m, ∃ text, Compilation.load text = .ok (tiers i)
  named : ∀ i ≤ m, (tiers i).name = some (Chain.assemblyOf config (n + i))
  exported : ∀ i < m, ∃ a, (tiers (i + 1)).FirstNamed (Chain.assemblyOf config (n + i)) a ∧
    ∀ src, Emits config (tiers i) src →
      ∃ t, a.Exports t ∧ t.namespacePath = src.spec.space ∧ t.name = src.spec.type

/-- A line of emitted classes, one for each tier and each the base of the next, starts with `src` at
the lowest tier and ends with the last one `i` tiers above. -/
inductive Descends (config : Config) (tiers : Nat → Compilation) (src : Source) :
    Nat → Source → Prop
  | lowest : Emits config (tiers 0) src → Descends config tiers src 0 src
  | next {i : Nat} {below above : Source} : Descends config tiers src i below →
      Emits config (tiers (i + 1)) above → above.spec.baseSpace = below.spec.space →
      above.spec.baseType = below.spec.type → Descends config tiers src (i + 1) above

theorem Tower.lower {n m : Nat} {tiers : Nat → Compilation} (h : Tower config n (m + 1) tiers) :
    Tower config n m tiers := by
  refine ⟨?_, ?_, ?_⟩
  · intro i hi
    exact h.loaded i (Nat.le_succ_of_le hi)
  · intro i hi
    exact h.named i (Nat.le_succ_of_le hi)
  · intro i hi
    exact h.exported i (Nat.lt_succ_of_lt hi)

theorem Descends.emits {tiers : Nat → Compilation} {i : Nat} {last : Source}
    (h : Descends config tiers src i last) : Emits config (tiers i) last := by
  cases h with
  | lowest hsrc => exact hsrc
  | next _ hlast _ _ => exact hlast

theorem Emits.mem_of_run (h : Emits config c src) (hs : s.Quiet)
    (hrun : ((run config c).runIn s).1 = .ok sources) : src ∈ sources := by
  obtain ⟨s', sources', hs', hrun', hsrc⟩ := h
  rw [(polls_run config c).runIn_quiet hs'] at hrun'
  rw [(polls_run config c).runIn_quiet hs] at hrun
  obtain rfl : sources' = sources := Except.ok.inj (hrun'.symm.trans hrun)
  exact hsrc

theorem Emits.point_notMem_type (hc : config.Usable) (hm : config.mark = "global::")
    (hp : c.Placed) (h : Emits config c src) : '.' ∉ src.spec.type.toList := by
  obtain ⟨s, sources, hs, hrun, hsrc⟩ := h
  obtain ⟨chain, hl⟩ := exists_link hs hrun hsrc
  have hspec := (qualifies_of_mem hc hm hp hl hs hrun hsrc).2
  exact (point_notMem_types hspec).1

theorem quiet_start : (Session.start none).Quiet := by
  intro t ht
  cases ht

/-- A class with the token of its tier is re-run at every tier of the tower. -/
theorem Tower.exists_descends (hc : config.Usable) (hm : config.mark = "global::") {n m : Nat}
    {tiers : Nat → Compilation} (h : Tower config n m tiers) (hn : config.baseline ≤ n)
    (hdigits : (toString (n + m)).toList.length ≤ Text.digitLimit)
    (hsrc : Emits config (tiers 0) src) (htoken : HasToken config n src.spec.type) :
    ∃ last, Descends config tiers src m last ∧ HasToken config (n + m) last.spec.type := by
  -- by induction on the height: the token in the name of the last class is what carries it on
  induction m with
  | zero => exact ⟨src, .lowest hsrc, htoken⟩
  | succ m ih =>
    have hle : (toString (n + m)).toList.length ≤ (toString (n + (m + 1))).toList.length :=
      Text.length_toString_le (by omega)
    obtain ⟨below, hline, hbelow⟩ := ih h.lower (hle.trans hdigits)
    obtain ⟨text, hload⟩ := h.loaded m (Nat.le_succ m)
    obtain ⟨text', hload'⟩ := h.loaded (m + 1) (Nat.le_refl _)
    have hp : (tiers m).Placed := (Compilation.load_eq_ok hload).1
    have hp' : (tiers (m + 1)).Placed := (Compilation.load_eq_ok hload').1
    obtain ⟨a, ha, hexported⟩ := h.exported m (Nat.lt_succ_self m)
    obtain ⟨t, ht, hspace, htype⟩ := hexported below hline.emits
    have hpoint : '.' ∉ t.name.toList := by
      rw [htype]
      exact hline.emits.point_notMem_type hc hm hp
    have hle' : config.baseline ≤ (n + m : Nat) := by omega
    obtain ⟨sources, hrun, hmirrored, -⟩ := exists_run_succ hc hm hp' hle'
      (h.named (m + 1) (Nat.le_refl _)) hdigits quiet_start ha ht hpoint
    rw [htype] at hmirrored
    obtain ⟨above, habove, hbase, hbase', htoken'⟩ := hmirrored hbelow
    refine ⟨above, .next hline ⟨_, sources, quiet_start, hrun, habove⟩ ?_ hbase', htoken'⟩
    rw [hbase, hspace]

/-- What a run emits, seen from the next tier. No class names itself as its base. The next run
mirrors an emitted class that is exported as soon as its name has the token of its tier, and the
class that carries it up has the next token in turn; without points in the exported names it mirrors
no others, so that such a class is re-run at every tier above. Above the baseline the token is there
unless the mirrored type's own name has a point; at the baseline it is there when the suffix first
occurs in the simple name. -/
theorem mirrored_again {config : Config} {n : Nat} {text : String} {c : Compilation}
    {s₀ s : Session} {sources : List Source} {src : Source}
    (hvalid : ((ensureValid config).runIn s₀).1 = .ok ()) (hmark : config.mark = "global::")
    (hload : Compilation.load text = .ok c) (hname : c.name = some (Chain.assemblyOf config n))
    (hquiet : s.Quiet) (hrun : ((run config c).runIn s).1 = .ok sources) (hsrc : src ∈ sources) :
    (src.spec.space, src.spec.type) ≠ (src.spec.baseSpace, src.spec.baseType) ∧
    (∀ (text' : String) (c' : Compilation) (s' : Session) (a : Assembly) (t : NamedType),
      Compilation.load text' = .ok c' → c'.name = some (Chain.assemblyOf config (n + 1)) →
      (toString (n + 1)).toList.length ≤ Text.digitLimit → s'.Quiet →
      c'.FirstNamed (Chain.assemblyOf config n) a → a.Exports t →
      t.namespacePath = src.spec.space → t.name = src.spec.type →
      ∃ sources', ((run config c').runIn s').1 = .ok sources' ∧
        (HasToken config n src.spec.type →
          ∃ src' ∈ sources', src'.spec.baseSpace = src.spec.space ∧
            src'.spec.baseType = src.spec.type ∧ HasToken config (n + 1) src'.spec.type) ∧
        (PlainNames a → MirroredIn sources' src.spec.space src.spec.type →
          HasToken config n src.spec.type)) ∧
    (∀ (m : Nat) (tiers : Nat → Compilation), tiers 0 = c → Tower config n m tiers →
      (toString (n + m)).toList.length ≤ Text.digitLimit → HasToken config n src.spec.type →
      ∃ last, Descends config tiers src m last ∧ HasToken config (n + m) last.spec.type) ∧
    (∀ k, n = k + 1 → config.baseline ≤ k →
      (HasToken config n src.spec.type ↔
        HasToken config k src.spec.baseType ∨ HasToken config n src.spec.baseType) ∧
      ∀ a, c.FirstNamed (Chain.assemblyOf config k) a → PlainNames a →
        HasToken config n src.spec.type) ∧
    (config.baseline = n →
      (HasToken config n src.spec.type ↔
        (∃ before after, Text.FirstAt config.suffix.toList before after
            (movedUp config n src.spec.baseName) ∧ '.' ∉ config.suffix.toList ++ after) ∨
          (Chain.token config n).toList <:+:
            Text.simpleName (movedUp config n src.spec.baseName))) := by
  have hc : config.Usable := Config.usable_of_problems (ensureValid_eq_ok_iff.mp hvalid)
  have hp : c.Placed := (Compilation.load_eq_ok hload).1
  obtain ⟨chain, hl⟩ := exists_link hquiet hrun hsrc
  have hl' : Chain.standing config (Chain.assemblyOf config n) = .link chain := by
    rw [hname] at hl
    exact hl
  obtain ⟨-, hn, rfl⟩ := Chain.standing_assemblyOf_iff.mp hl'
  obtain ⟨hq, hspec⟩ := qualifies_of_mem hc hmark hp hl hquiet hrun hsrc
  refine ⟨spec_ne_base hc hmark hp hl hq hspec, ?_, ?_, ?_, ?_⟩
  · intro text' c' s' a t hload' hname' hdigits hquiet' ha ht hspace htype
    have hp' : c'.Placed := (Compilation.load_eq_ok hload').1
    have hpoint : '.' ∉ t.name.toList := htype ▸ (point_notMem_types hspec).1
    obtain ⟨sources', hrun', hmirrored, hplain⟩ :=
      exists_run_succ hc hmark hp' hn hname' hdigits hquiet' ha ht hpoint
    rw [hspace, htype] at hmirrored hplain
    exact ⟨sources', hrun', hmirrored, hplain⟩
  · intro m tiers hlowest htower hdigits htoken
    have hemits : Emits config (tiers 0) src := by
      rw [hlowest]
      exact ⟨s, sources, hquiet, hrun, hsrc⟩
    exact htower.exists_descends hc hmark hn hdigits hemits htoken
  · intro k hk' hk
    subst hk'
    refine ⟨hasToken_succ_iff hc hk hspec, ?_⟩
    intro a ha hplain
    rw [← Chain.previousAssembly_succ hk (Chain.assemblyOf config (k + 1))] at ha
    obtain ⟨t, -, hcar, htype⟩ :=
      hq.exported hc hp hl' (point_notMem_types hspec).2 ha hplain
    refine (hasToken_succ_iff hc hk hspec).mpr (Or.inl ?_)
    rw [htype]
    exact (carries_succ_iff hk _).mp hcar
  · intro hb
    exact hasToken_baseline_iff hc hb hspec

/-- A compilation of a tier whose reference exports one class. -/
def overOne (name reference space type : String) : Compilation :=
  ⟨some name, [⟨reference, ⟨"", "", [.space space "" [.type ⟨type, space, "", []⟩]]⟩⟩]⟩

theorem overOne_exports (name reference space type : String) (h : space ≠ "") :
    ∃ a t, (overOne name reference space type).FirstNamed reference a ∧ a.Exports t ∧
      t.namespacePath = space ∧ t.name = type := by
  refine ⟨_, ⟨type, space, "", []⟩, ⟨[], [], rfl, rfl, ?_⟩, ?_, rfl, rfl⟩
  · intro b hb
    exact absurd hb List.not_mem_nil
  · exact .inside List.mem_cons_self (.here h List.mem_cons_self)

theorem exists_source_of_spec {c : Compilation} (sp : Spec)
    (h : ((run .default c).runIn (.start none)).1.map (List.map Source.spec) = .ok [sp]) :
    ∃ sources src, ((run .default c).runIn (.start none)).1 = .ok sources ∧ src ∈ sources ∧
      ∀ src' ∈ sources, src'.spec = sp := by
  cases hrun : ((run .default c).runIn (.start none)).1 with
  | error e =>
    rw [hrun] at h
    cases h
  | ok sources =>
    rw [hrun] at h
    have hspecs : sources.map Source.spec = [sp] := Except.ok.inj h
    obtain ⟨src, hsrc, -⟩ := List.mem_map.mp (hspecs ▸ List.mem_cons_self)
    refine ⟨sources, src, rfl, hsrc, ?_⟩
    intro src' hsrc'
    have hmem : src'.spec ∈ sources.map Source.spec := List.mem_map_of_mem hsrc'
    rw [hspecs] at hmem
    exact List.mem_singleton.mp hmem

theorem ensureValid_default : ((ensureValid .default).runIn (.start none)).1 = .ok () :=
  ensureValid_eq_ok_iff.mpr (by decide)

/-- A test class of the root assembly, seen from the baseline. -/
def plainTests : Compilation :=
  overOne "StyleCop.Analyzers.Test.CSharp7" "StyleCop.Analyzers.Test" "N" "FooUnitTests"

/-- What the baseline emits for it, seen from the next tier. -/
def plainTestsNext : Compilation :=
  overOne "StyleCop.Analyzers.Test.CSharp8" "StyleCop.Analyzers.Test.CSharp7" "N"
    "FooCSharp7UnitTests"

theorem plainTests_loads : Compilation.load plainTests.dump = .ok plainTests := by
  rw [Compilation.load_dump]
  rfl

theorem plainTestsNext_loads : Compilation.load plainTestsNext.dump = .ok plainTestsNext := by
  rw [Compilation.load_dump]
  rfl

/-- The baseline over the test class, and the next tier over what is emitted for it. -/
def plainTiers : Nat → Compilation
  | 0 => plainTests
  | _ => plainTestsNext

theorem plainTests_specs :
    ((run .default plainTests).runIn (.start none)).1.map (List.map Source.spec) =
      .ok [⟨"N", "FooCSharp7UnitTests", "N", "FooUnitTests"⟩] := by
  decide +kernel

theorem plainTiers_tower : Tower .default 7 1 plainTiers := by
  refine ⟨?_, ?_, ?_⟩
  · intro i _
    cases i with
    | zero => exact ⟨_, plainTests_loads⟩
    | succ i => exact ⟨_, plainTestsNext_loads⟩
  · intro i hi
    obtain rfl | rfl : i = 0 ∨ i = 1 := by omega
    · rfl
    · rfl
  · intro i hi
    obtain rfl : i = 0 := Nat.lt_one_iff.mp hi
    obtain ⟨sources, -, hrun, -, hspecs⟩ := exists_source_of_spec _ plainTests_specs
    obtain ⟨a, t, ha, ht, hspace, htype⟩ := overOne_exports "StyleCop.Analyzers.Test.CSharp8"
      "StyleCop.Analyzers.Test.CSharp7" "N" "FooCSharp7UnitTests" (by decide)
    refine ⟨a, ha, ?_⟩
    intro src hsrc
    have hsp := hspecs src (hsrc.mem_of_run quiet_start hrun)
    exact ⟨t, ht, by rw [hspace, hsp], by rw [htype, hsp]⟩

/-- The test class is mirrored, and what is emitted for it is mirrored in turn. -/
theorem mirrored_again_plainTests :
    ((ensureValid .default).runIn (.start none)).1 = .ok () ∧
      Compilation.load plainTests.dump = .ok plainTests ∧
      Compilation.load plainTestsNext.dump = .ok plainTestsNext ∧
      ∃ sources sources', ((run .default plainTests).runIn (.start none)).1 = .ok sources ∧
        ((run .default plainTestsNext).runIn (.start none)).1 = .ok sources' ∧
        ∃ src ∈ sources, (∃ src' ∈ sources', src'.spec.baseSpace = src.spec.space ∧
          src'.spec.baseType = src.spec.type ∧ HasToken .default 8 src'.spec.type) ∧
          ∃ last, Descends .default plainTiers src 1 last ∧ HasToken .default 8 last.spec.type := by
  obtain ⟨sources, src, hrun, hsrc, hspecs⟩ := exists_source_of_spec _ plainTests_specs
  have hsp := hspecs src hsrc
  obtain ⟨a, t, ha, ht, hspace, htype⟩ := overOne_exports "StyleCop.Analyzers.Test.CSharp8"
    "StyleCop.Analyzers.Test.CSharp7" "N" "FooCSharp7UnitTests" (by decide)
  have htoken : HasToken .default 7 src.spec.type := by
    rw [hsp]
    exact ⟨"Foo".toList, "UnitTests".toList, by decide⟩
  obtain ⟨-, hnext, hline, -, -⟩ := mirrored_again (n := 7) ensureValid_default rfl plainTests_loads
    rfl quiet_start hrun hsrc
  obtain ⟨sources', hrun', hmirrored, -⟩ := hnext _ plainTestsNext (.start none) a t
    plainTestsNext_loads rfl (by decide) quiet_start ha ht (by rw [hspace, hsp])
    (by rw [htype, hsp])
  have hlast := hline 1 plainTiers rfl plainTiers_tower (by decide) htoken
  exact ⟨ensureValid_default, plainTests_loads, plainTestsNext_loads, sources, sources', hrun,
    hrun', src, hsrc, hmirrored htoken, hlast⟩

/-- A test class of the root assembly in a namespace whose name has the suffix too. -/
def helperTests : Compilation :=
  overOne "StyleCop.Analyzers.Test.CSharp7" "StyleCop.Analyzers.Test" "UnitTestsSupport"
    "HelperUnitTests"

/-- What the baseline emits for it, seen from the next tier. -/
def helperTestsNext : Compilation :=
  overOne "StyleCop.Analyzers.Test.CSharp8" "StyleCop.Analyzers.Test.CSharp7"
    "CSharp7UnitTestsSupport" "HelperUnitTests"

theorem helperTests_loads : Compilation.load helperTests.dump = .ok helperTests := by
  rw [Compilation.load_dump]
  rfl

theorem helperTestsNext_loads : Compilation.load helperTestsNext.dump = .ok helperTestsNext := by
  rw [Compilation.load_dump]
  rfl

/-- Not everything that a run emits is mirrored by the next: when the suffix first occurs in the
namespace, the token goes there, and the emitted class does not have it in its simple name. -/
theorem not_always_mirrored_again :
    ¬ ∀ (config : Config) (n : Nat) (text text' : String) (c c' : Compilation)
      (s₀ s s' : Session) (sources : List Source) (src : Source) (a : Assembly) (t : NamedType),
      ((ensureValid config).runIn s₀).1 = .ok () → config.mark = "global::" →
      config.baseline ≤ n → Compilation.load text = .ok c →
      c.name = some (Chain.assemblyOf config n) → s.Quiet →
      ((run config c).runIn s).1 = .ok sources → src ∈ sources →
      Compilation.load text' = .ok c' → c'.name = some (Chain.assemblyOf config (n + 1)) →
      s'.Quiet → c'.FirstNamed (Chain.assemblyOf config n) a → a.Exports t →
      t.namespacePath = src.spec.space → t.name = src.spec.type →
      ∃ sources', ((run config c').runIn s').1 = .ok sources' ∧
        MirroredIn sources' src.spec.space src.spec.type := by
  intro h
  obtain ⟨sources, src, hrun, hsrc, hspecs⟩ := exists_source_of_spec (c := helperTests)
    ⟨"CSharp7UnitTestsSupport", "HelperUnitTests", "UnitTestsSupport", "HelperUnitTests"⟩
    (by decide +kernel)
  have hsp := hspecs src hsrc
  obtain ⟨a, t, ha, ht, hspace, htype⟩ := overOne_exports "StyleCop.Analyzers.Test.CSharp8"
    "StyleCop.Analyzers.Test.CSharp7" "CSharp7UnitTestsSupport" "HelperUnitTests" (by decide)
  have hnone : ((run .default helperTestsNext).runIn (.start none)).1 = .ok [] := by
    decide +kernel
  obtain ⟨sources', hrun', src', hsrc', -⟩ := h .default 7 _ _ helperTests helperTestsNext
    (.start none) (.start none) (.start none) sources src a t ensureValid_default rfl (by decide)
    helperTests_loads rfl quiet_start hrun hsrc helperTestsNext_loads rfl quiet_start ha ht
    (by rw [hspace, hsp]) (by rw [htype, hsp])
  obtain rfl : sources' = [] := Except.ok.inj (hrun'.symm.trans hnone)
  exact absurd hsrc' List.not_mem_nil

end Generator

end TierHost
