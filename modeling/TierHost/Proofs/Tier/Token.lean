import TierHost.Proofs.Tier.Lift

/-!
The token of a tier in the simple names of classes. Lifting brings the token there unless the suffix
first occurs in the namespace, or the type's own name has a point; and it is what the run of the
next tier looks for.
-/

namespace TierHost

namespace Generator

/-- The simple name holds the token of the tier. -/
def HasToken (config : Config) (n : Nat) (simple : String) : Prop :=
  (Chain.token config n).toList <:+: simple.toList

/-- One of the sources is of a class that derives from this one. -/
def MirroredIn (sources : List Source) (space type : String) : Prop :=
  ∃ src ∈ sources, src.spec.baseSpace = space ∧ src.spec.baseType = type

/-- No type that the assembly exports has a point in its name. -/
def PlainNames (a : Assembly) : Prop := ∀ t, a.Exports t → '.' ∉ t.name.toList

variable {config : Config} {chain : Chain} {c : Compilation} {s : Session}
  {sources : List Source} {src : Source}

theorem exists_link (hs : s.Quiet) (hrun : ((run config c).runIn s).1 = .ok sources)
    (hsrc : src ∈ sources) : ∃ chain, Chain.standing config (c.name.getD "") = .link chain := by
  rw [(polls_run config c).runIn_quiet hs, outcome] at hrun
  cases hl : linkOf config (c.name.getD "") with
  | error e =>
    rw [hl] at hrun
    cases hrun
  | ok link =>
    cases link with
    | none =>
      rw [hl] at hrun
      cases hrun
      exact absurd hsrc List.not_mem_nil
    | some chain => exact ⟨chain, linkOf_eq_link_iff.mp hl⟩

theorem qualifies_of_mem (hc : config.Usable) (hm : config.mark = "global::") (hp : c.Placed)
    (hl : Chain.standing config (c.name.getD "") = .link chain) (hs : s.Quiet)
    (hrun : ((run config c).runIn s).1 = .ok sources) (hsrc : src ∈ sources) :
    Qualifies config chain c src.spec.baseName ∧
      Rename.spec config chain src.spec.baseName = .ok src.spec := by
  obtain ⟨sources', hok, hmap, hall⟩ := exists_run hc hm hp hl hs
  obtain rfl : sources = sources' := Except.ok.inj (hrun.symm.trans hok)
  refine ⟨(mem_candidateNames hc hl).mp ?_, (hall src hsrc).1⟩
  rw [← hmap]
  exact List.mem_map_of_mem hsrc

theorem last_cut_inj {space space' type type' : String} (ht : '.' ∉ type.toList)
    (ht' : '.' ∉ type'.toList) (h : space ++ "." ++ type = space' ++ "." ++ type') :
    space = space' ∧ type = type' := by
  have hmark : '.' ∉ globalMark.toList := by decide
  have hcut : Rename.split globalMark (globalMark ++ (space ++ "." ++ type)) = .ok (space, type) :=
    (Rename.split_marked_iff hmark).mpr ⟨rfl, ht⟩
  have hcut' : Rename.split globalMark (globalMark ++ (space ++ "." ++ type)) =
      .ok (space', type') :=
    (Rename.split_marked_iff hmark).mpr ⟨h, ht'⟩
  exact Prod.mk.inj (Except.ok.inj (hcut.symm.trans hcut'))

theorem spec_ne_base (hc : config.Usable) (hm : config.mark = "global::") (hp : c.Placed)
    {name : String} (hl : Chain.standing config name = .link chain) {sp : Spec}
    (hq : Qualifies config chain c sp.baseName)
    (hspec : Rename.spec config chain sp.baseName = .ok sp) :
    (sp.space, sp.type) ≠ (sp.baseSpace, sp.baseType) := by
  obtain ⟨hlength, hne⟩ := hq.lift_grows hc hl hp
  exact Rename.ne_base hspec (by rw [hm]; decide) (by rw [hm]; rfl) hlength hne

theorem point_notMem_types {sp : Spec} {candidate : String}
    (h : Rename.spec config chain candidate = .ok sp) :
    '.' ∉ sp.type.toList ∧ '.' ∉ sp.baseType.toList := by
  obtain ⟨htype, hbase⟩ := Rename.type_of_spec h
  rw [htype, hbase]
  exact ⟨Text.point_notMem_simpleName _, Text.point_notMem_simpleName _⟩

/-- Above the baseline the tokens in the base's simple name are replaced, and nothing else. -/
theorem type_eq_replaceEach (hc : config.Usable) {k : Nat} {name : String} {sp : Spec}
    (hk : config.baseline ≤ k)
    (hspec : Rename.spec config (Chain.ofTier config (k + 1 : Nat) name) sp.baseName = .ok sp) :
    sp.type.toList = Text.replaceEach (Chain.token config k).toList
      (Chain.token config (k + 1 : Nat)).toList sp.baseType.toList := by
  have hbase : sp.baseName.toList =
      (globalMark.toList ++ sp.baseSpace.toList) ++ '.' :: sp.baseType.toList := by
    simp only [Spec.baseName, String.toList_append, List.append_assoc]
    rfl
  obtain ⟨-, hpoint⟩ := point_notMem_types hspec
  have hcut : '.' ∉ Text.replaceEach (Chain.token config k).toList
      (Chain.token config (k + 1 : Nat)).toList sp.baseType.toList :=
    Text.notMem_replaceEach (hc.token_ne_nil k) hpoint (hc.point_notMem_token (k + 1))
  rw [Chain.ofTier_succ hk] at hspec
  -- no token goes across the last point, so each part of the name is replaced on its own
  rw [(Rename.type_of_spec hspec).1, Rename.toList_lift_regular (hc.token_ne_nil k), hbase,
    Text.replaceEach_append_cons (hc.token_ne_nil k) (hc.point_notMem_token k),
    Text.simpleName_append_cons hcut]

theorem hasToken_succ_iff (hc : config.Usable) {k : Nat} {name : String} {sp : Spec}
    (hk : config.baseline ≤ k)
    (hspec : Rename.spec config (Chain.ofTier config (k + 1 : Nat) name) sp.baseName = .ok sp) :
    HasToken config (k + 1) sp.type ↔
      HasToken config k sp.baseType ∨ HasToken config (k + 1) sp.baseType := by
  have htype := type_eq_replaceEach hc hk hspec
  unfold HasToken
  rw [htype]
  by_cases hb : (Chain.token config k).toList <:+: sp.baseType.toList
  · exact ⟨fun _ => Or.inl hb, fun _ => Text.infix_replaceEach (hc.token_ne_nil k) hb⟩
  · rw [Text.replaceEach_absent hb]
    exact ⟨Or.inr, fun h => h.resolve_left hb⟩

/-- The name of a class at the baseline with the root assembly's name, where it first occurs, moved
up to that of the tier. -/
def movedUp (config : Config) (n : Nat) (name : String) : List Char :=
  Text.replaceFirst config.rootAssembly.toList (Chain.assemblyOf config n).toList name.toList

theorem hasToken_baseline_iff (hc : config.Usable) {n : Nat} (hn : config.baseline = n) {sp : Spec}
    (hspec : Rename.spec config (Chain.ofTier config n (Chain.assemblyOf config n)) sp.baseName =
      .ok sp) :
    HasToken config n sp.type ↔
      (∃ before after, Text.FirstAt config.suffix.toList before after
          (movedUp config n sp.baseName) ∧ '.' ∉ config.suffix.toList ++ after) ∨
        (Chain.token config n).toList <:+: Text.simpleName (movedUp config n sp.baseName) := by
  rw [Chain.ofTier_baseline hn] at hspec
  unfold HasToken
  rw [(Rename.type_of_spec hspec).1, Rename.toList_lift_baseline rfl]
  exact Text.infix_simpleName_replaceFirst (hc.point_notMem_token n)

/-- The name of a test class is that of an exported type, cut where the type's name starts, when no
exported type has a point in its name. -/
theorem Qualifies.exported (hc : config.Usable) (hp : c.Placed) {name : String}
    (hl : Chain.standing config name = .link chain) {sp : Spec}
    (hq : Qualifies config chain c sp.baseName) (hpoint : '.' ∉ sp.baseType.toList) {a : Assembly}
    (ha : c.FirstNamed chain.previousAssembly a) (hplain : PlainNames a) :
    ∃ t, a.Exports t ∧ Carries config chain t.name ∧ sp.baseType = t.name := by
  obtain ⟨a', t, ha', ht, hcar, hname⟩ := hq
  obtain rfl := ha.unique ha'
  obtain ⟨hspace, houter⟩ := (hp a ha.mem).of_exports ht
  rw [NamedType.displayName_eq hspace houter (hcar.ne_empty hc hl), Spec.baseName] at hname
  have hcut := String.append_right_inj _ |>.mp hname
  exact ⟨t, ht, hcar, (last_cut_inj hpoint (hplain t ht) hcut).2⟩

theorem carries_succ_iff {k : Nat} (hk : config.baseline ≤ k) (name : String) {simple : String} :
    Carries config (Chain.ofTier config (k + 1 : Nat) name) simple ↔ HasToken config k simple := by
  have hne : ¬ ((k + 1 : Nat) : Int) = config.baseline := by omega
  rw [Chain.ofTier_succ hk, Carries, if_neg hne]
  exact Iff.rfl

/-- What the run of the tier above makes of a class that a tier's assembly exports: it mirrors the
class when its name has the token of the tier, and what it emits has the next token; it mirrors no
others if no exported name has a point. -/
theorem exists_run_succ (hc : config.Usable) (hm : config.mark = "global::") (hp : c.Placed)
    {n : Nat} (hn : config.baseline ≤ n) (hname : c.name = some (Chain.assemblyOf config (n + 1)))
    (hdigits : (toString (n + 1)).toList.length ≤ Text.digitLimit) (hs : s.Quiet) {a : Assembly}
    {t : NamedType} (ha : c.FirstNamed (Chain.assemblyOf config n) a) (ht : a.Exports t)
    (hpoint : '.' ∉ t.name.toList) :
    ∃ sources, ((run config c).runIn s).1 = .ok sources ∧
      (HasToken config n t.name →
        ∃ src ∈ sources, src.spec.baseSpace = t.namespacePath ∧ src.spec.baseType = t.name ∧
          HasToken config (n + 1) src.spec.type) ∧
      (PlainNames a → MirroredIn sources t.namespacePath t.name → HasToken config n t.name) := by
  have hl : Chain.standing config (c.name.getD "") =
      .link (Chain.ofTier config (n + 1 : Nat) (Chain.assemblyOf config (n + 1))) := by
    rw [hname]
    exact Chain.standing_assemblyOf_iff.mpr ⟨hdigits, by omega, rfl⟩
  rw [← Chain.previousAssembly_succ hn (Chain.assemblyOf config (n + 1))] at ha
  obtain ⟨sources, hok, hmap, hall⟩ := exists_run hc hm hp hl hs
  refine ⟨sources, hok, ?_, ?_⟩
  · -- the class carries the token that the next tier looks for, so it is one of the candidates
    intro htoken
    have hcar := (carries_succ_iff hn (Chain.assemblyOf config (n + 1))).mpr htoken
    have hq : t.displayName ∈ sources.map (fun src => src.spec.baseName) := by
      rw [hmap]
      exact (mem_candidateNames hc hl).mpr ⟨a, t, ha, ht, hcar, rfl⟩
    obtain ⟨src, hsrc, hbase⟩ := List.mem_map.mp hq
    obtain ⟨hspace, houter⟩ := (hp a ha.mem).of_exports ht
    rw [NamedType.displayName_eq hspace houter (hcar.ne_empty hc hl), Spec.baseName] at hbase
    have hcut := String.append_right_inj _ |>.mp hbase
    have hspec := (hall src hsrc).1
    obtain ⟨hspace', htype'⟩ := last_cut_inj (point_notMem_types hspec).2 hpoint hcut
    refine ⟨src, hsrc, hspace', htype', (hasToken_succ_iff hc hn hspec).mpr (Or.inl ?_)⟩
    rwa [htype']
  · -- without points the type that is mirrored is the class itself, and not one with a longer name
    intro hplain hmirrored
    obtain ⟨src, hsrc, -, htype⟩ := hmirrored
    obtain ⟨hq, hspec⟩ := qualifies_of_mem hc hm hp hl hs hok hsrc
    obtain ⟨u, -, hcar, hu⟩ :=
      hq.exported hc hp hl (point_notMem_types hspec).2 ha hplain
    rw [← htype, hu]
    exact (carries_succ_iff hn _).mp hcar

end Generator

end TierHost
