import TierHost.Proofs.Symbols.Exports
import TierHost.Proofs.Symbols.RoundTrip
import TierHost.Proofs.Text.Order
import TierHost.Proofs.Tier.Rename

/-!
What a run comes to: one source for each test class that the tier below exports, in increasing order
of their names.
-/

namespace TierHost

/-- The name of the class that a class derives from, marked as starting from the global namespace. -/
def Spec.baseName (s : Spec) : String := globalMark ++ (s.baseSpace ++ "." ++ s.baseType)

namespace Generator

/-- The simple name is that of a test class of the tier below: at the baseline it ends with the test
class suffix, and in any other tier it holds the token of the tier below. -/
def Carries (config : Config) (chain : Chain) (name : String) : Prop :=
  if chain.tier = config.baseline then config.suffix.toList <:+ name.toList
  else chain.previousToken.toList <:+: name.toList

/-- The display name is that of a test class in a named namespace of the first reference that has
the name of the tier below. -/
def Qualifies (config : Config) (chain : Chain) (c : Compilation) (name : String) : Prop :=
  ∃ a t, c.FirstNamed chain.previousAssembly a ∧ a.Exports t ∧ Carries config chain t.name ∧
    name = t.displayName

variable {config : Config} {chain : Chain} {c : Compilation} {name : String}

theorem accepts_iff (hc : config.Usable) (hl : Chain.standing config name = .link chain)
    (simple : String) :
    Naming.accepts ⟨chain.previousToken, config.suffix⟩ simple = true ↔
      Carries config chain simple := by
  obtain ⟨n, hchain, -, htier⟩ := hc.link_cases hl
  have hn : chain.tier = n := by rw [hchain]; rfl
  unfold Naming.accepts Carries
  rw [hn]
  rcases htier with ⟨hb, htoken, -⟩ | ⟨k, rfl, hb, htoken, -⟩
  · have hempty : chain.previousToken.isEmpty = true := by rw [htoken]; rfl
    rw [if_pos hempty, if_pos hb.symm]
    exact List.isSuffixOf_iff_suffix
  · have hempty : ¬ chain.previousToken.isEmpty = true := by
      have hne := hc.token_ne_nil k
      rw [htoken]
      simpa using hne
    rw [if_neg hempty, if_neg (by omega)]
    exact Text.occursIn_iff

theorem mem_candidateNames (hc : config.Usable) (hl : Chain.standing config name = .link chain)
    {candidate : String} :
    candidate ∈ candidateNames config chain c ↔ Qualifies config chain c candidate := by
  unfold candidateNames Qualifies
  cases hr : c.reference? chain.previousAssembly with
  | none =>
    constructor
    · intro h
      cases h
    · rintro ⟨a, t, ha, -⟩
      rw [Compilation.reference?_eq_some_iff.mpr ha] at hr
      cases hr
  | some previous =>
    dsimp only
    rw [Text.mem_sortedDistinct, Naming.mem_found]
    constructor
    · rintro ⟨t, ht, ha, rfl⟩
      have hfirst := Compilation.reference?_eq_some_iff.mp hr
      exact ⟨previous, t, hfirst, ht, (accepts_iff hc hl t.name).mp ha, rfl⟩
    · rintro ⟨a, t, ha, ht, hcar, rfl⟩
      rw [Compilation.reference?_eq_some_iff.mpr ha] at hr
      cases hr
      exact ⟨t, ht, (accepts_iff hc hl t.name).mpr hcar, rfl⟩

theorem pairwise_candidateNames : (candidateNames config chain c).Pairwise (· < ·) := by
  unfold candidateNames
  cases c.reference? chain.previousAssembly with
  | none => exact List.Pairwise.nil
  | some previous => exact Text.pairwise_sortedDistinct _

theorem Carries.ne_empty (hc : config.Usable) (hl : Chain.standing config name = .link chain)
    {simple : String} (h : Carries config chain simple) : simple ≠ "" := by
  rintro rfl
  obtain ⟨n, hchain, -, htier⟩ := hc.link_cases hl
  have hn : chain.tier = n := by rw [hchain]; rfl
  unfold Carries at h
  rw [hn] at h
  rcases htier with ⟨hb, -, -⟩ | ⟨k, rfl, hb, htoken, -⟩
  · rw [if_pos hb.symm] at h
    exact hc.suffixed (String.toList_inj.mp (List.suffix_nil.mp h))
  · rw [if_neg (by omega)] at h
    exact hc.token_ne_nil k (htoken ▸ List.infix_nil.mp h)

/-- A name that qualifies in a placed compilation is marked, and the rest of it has a point. -/
theorem Qualifies.marked (hc : config.Usable) (hl : Chain.standing config name = .link chain)
    (hp : c.Placed) {candidate : String} (h : Qualifies config chain c candidate) :
    ∃ rest : String, candidate = globalMark ++ rest ∧ '.' ∈ rest.toList := by
  obtain ⟨a, t, ha, ht, hcar, rfl⟩ := h
  obtain ⟨hspace, houter⟩ := (hp a ha.mem).of_exports ht
  refine ⟨_, NamedType.displayName_eq hspace houter (hcar.ne_empty hc hl), ?_⟩
  simp only [String.toList_append]
  exact List.mem_append_left _ (List.mem_append_right _ List.mem_cons_self)

theorem exists_source (hc : config.Usable) (hm : config.mark = "global::")
    (hl : Chain.standing config name = .link chain) (hp : c.Placed) {candidate : String}
    (h : Qualifies config chain c candidate) :
    ∃ s, Rename.spec config chain candidate = .ok s ∧ s.baseName = candidate := by
  obtain ⟨rest, rfl, hrest⟩ := h.marked hc hl hp
  have hpoint : '.' ∈ (globalMark ++ rest).toList := by
    rw [String.toList_append]
    exact List.mem_append_right _ hrest
  obtain ⟨s, hs⟩ := Rename.exists_spec hc hl hpoint
  -- splitting takes the mark off, so marking the two parts again gives the candidate
  obtain ⟨hb, -⟩ := Rename.spec_eq_ok_iff.mp hs
  rw [hm] at hb
  have hmark : '.' ∉ globalMark.toList := by decide
  obtain ⟨rfl, -⟩ := (Rename.split_marked_iff hmark).mp hb
  exact ⟨s, hs, rfl⟩

theorem produced_eq_ok (hc : config.Usable) (hm : config.mark = "global::")
    (hl : Chain.standing config name = .link chain) (hp : c.Placed) :
    ∃ sources, produced config chain c = .ok sources ∧
      sources.map (fun src => src.spec.baseName) = candidateNames config chain c ∧
      ∀ src ∈ sources, Rename.spec config chain src.spec.baseName = .ok src.spec ∧
        src = Source.ofSpec config src.spec := by
  have hsource : ∀ d ∈ candidateNames config chain c,
      ∃ src, sourceOf config chain d = .ok src ∧ src.spec.baseName = d := by
    intro d hd
    obtain ⟨s, hs, hbase⟩ := exists_source hc hm hl hp ((mem_candidateNames hc hl).mp hd)
    exact ⟨Source.ofSpec config s, by rw [sourceOf, hs], hbase⟩
  obtain ⟨sources, hok, hmap, hall⟩ := exists_mapM_eq_ok hsource
  refine ⟨sources, hok, hmap, ?_⟩
  intro src hsrc
  have h := hall src hsrc
  unfold sourceOf at h
  split at h
  · next s hs =>
    cases h
    exact ⟨hs, rfl⟩
  · cases h

/-- A run over a placed compilation with a link: it makes a source for each candidate, in order. -/
theorem exists_run {s : Session} (hc : config.Usable) (hm : config.mark = "global::")
    (hp : c.Placed) (hl : Chain.standing config (c.name.getD "") = .link chain) (hs : s.Quiet) :
    ∃ sources, ((run config c).runIn s).1 = .ok sources ∧
      sources.map (fun src => src.spec.baseName) = candidateNames config chain c ∧
      ∀ src ∈ sources, Rename.spec config chain src.spec.baseName = .ok src.spec ∧
        src = Source.ofSpec config src.spec := by
  obtain ⟨sources, hok, hrest⟩ := produced_eq_ok hc hm hl hp
  refine ⟨sources, ?_, hrest⟩
  calc ((run config c).runIn s).1 = outcome config c := (polls_run config c).runIn_quiet hs
    _ = produced config chain c := by rw [outcome, linkOf, hl]
    _ = .ok sources := hok

theorem resolve_eq_link_iff {s : Session} (hs : s.Quiet) {name : Option String} :
    ((resolve config name).runIn s).1 = .ok (some chain) ↔
      Chain.standing config (name.getD "") = .link chain := by
  rw [(polls_resolve config name).runIn_quiet hs, linkOf_eq_link_iff]

/-- The end-to-end meaning of a run: nothing fails, the sources correspond to the names of the test
classes that the tier below exports, they come in increasing order of these names, and each derives
from the class that it is made for. -/
theorem run_mirrors {config : Config} {chain : Chain} {c : Compilation} {text : String}
    {s s₀ : Session} (hvalid : ((ensureValid config).runIn s₀).1 = .ok ())
    (hmark : config.mark = "global::") (hload : Compilation.load text = .ok c) (hquiet : s.Quiet)
    (hlink : ((resolve config c.name).runIn s).1 = .ok (some chain)) :
    ∃ sources, ((run config c).runIn s).1 = .ok sources ∧
      (sources.map fun src => src.spec.baseName).Pairwise (· < ·) ∧
      (∀ d, d ∈ sources.map (fun src => src.spec.baseName) ↔ Qualifies config chain c d) ∧
      ((∀ a ∈ c.references, a.name ≠ chain.previousAssembly) → sources = []) ∧
      ∀ src ∈ sources, Rename.spec config chain src.spec.baseName = .ok src.spec ∧
        src = Source.ofSpec config src.spec := by
  have hc : config.Usable := Config.usable_of_problems (ensureValid_eq_ok_iff.mp hvalid)
  have hl := (resolve_eq_link_iff hquiet).mp hlink
  have hp : c.Placed := (Compilation.load_eq_ok hload).1
  obtain ⟨sources, hok, hmap, hall⟩ := exists_run hc hmark hp hl hquiet
  refine ⟨sources, hok, ?_, ?_, ?_, hall⟩
  · rw [hmap]
    exact pairwise_candidateNames
  · intro d
    rw [hmap]
    exact mem_candidateNames hc hl
  · intro hnone
    -- a name that qualifies would come from a reference with the name of the tier below
    have hnames : candidateNames config chain c = [] := by
      apply List.eq_nil_iff_forall_not_mem.mpr
      intro d hd
      obtain ⟨a, t, ha, -⟩ := (mem_candidateNames hc hl).mp hd
      obtain ⟨before, after, hsplit, hname, -⟩ := ha
      exact hnone a (hsplit ▸ List.mem_append_right before List.mem_cons_self) hname
    exact List.map_eq_nil_iff.mp (hmap.trans hnames)

/-- A compilation of the baseline whose root assembly declares a namespace twice. -/
def twiceDeclared : Compilation :=
  ⟨some "StyleCop.Analyzers.Test.CSharp7",
    [⟨"StyleCop.Analyzers.Test", ⟨"", "", [
      .space "N" "" [.type ⟨"FooUnitTests", "N", "", [⟨"InnerUnitTests", "N", "FooUnitTests", []⟩]⟩],
      .space "N" "" [.type ⟨"FooUnitTests", "N", "", []⟩],
      .type ⟨"BareUnitTests", "", "", []⟩]⟩⟩]⟩

theorem twiceDeclared_loads : Compilation.load twiceDeclared.dump = .ok twiceDeclared := by
  rw [Compilation.load_dump]
  rfl

/-- The type that is declared twice is mirrored once, and neither the nested nor the bare type is. -/
theorem run_mirrors_twiceDeclared :
    ((ensureValid .default).runIn (.start none)).1 = .ok () ∧
      Compilation.load twiceDeclared.dump = .ok twiceDeclared ∧
      ∃ sources, ((run .default twiceDeclared).runIn (.start none)).1 = .ok sources ∧
        (sources.map fun src => src.spec.baseName).Pairwise (· < ·) ∧
        ∀ d, d ∈ sources.map (fun src => src.spec.baseName) ↔ d = "global::N.FooUnitTests" := by
  have hvalid : ((ensureValid .default).runIn (.start none)).1 = .ok () :=
    ensureValid_eq_ok_iff.mpr (by decide)
  have hquiet : (Session.start none).Quiet := by
    intro t ht
    cases ht
  have hlink : ((resolve .default twiceDeclared.name).runIn (.start none)).1 =
      .ok (some (Chain.ofTier .default 7 "StyleCop.Analyzers.Test.CSharp7")) :=
    (resolve_eq_link_iff hquiet).mpr (by decide)
  obtain ⟨sources, hok, hsorted, hmem, -, -⟩ :=
    run_mirrors hvalid rfl twiceDeclared_loads hquiet hlink
  refine ⟨hvalid, twiceDeclared_loads, sources, hok, hsorted, ?_⟩
  intro d
  have hfound : candidateNames .default
      (Chain.ofTier .default 7 "StyleCop.Analyzers.Test.CSharp7") twiceDeclared =
        Text.sortedDistinct ["global::N.FooUnitTests", "global::N.FooUnitTests"] := rfl
  have hc : Config.default.Usable := Config.usable_of_problems (by decide)
  rw [hmem, ← mem_candidateNames hc ((resolve_eq_link_iff hquiet).mp hlink), hfound,
    Text.mem_sortedDistinct]
  simp only [List.mem_cons, List.not_mem_nil, or_false, or_self]

end Generator

end TierHost
