import TierHost.Proofs.Text.SimpleName
import TierHost.Proofs.Tier.Mirror

/-!
Where lifting a name puts the token of the tier. At the baseline it is put in at the first place of
the test class suffix, which need not be in the simple name; in any other tier the tokens of the
tier below are replaced in the namespace and in the simple name separately.
-/

namespace TierHost

namespace Rename

variable {config : Config} {chain : Chain} {candidate : String}

theorem split_eq_ok {mark qualified space type : String}
    (h : split mark qualified = .ok (space, type)) :
    type.toList = Text.simpleName qualified.toList ∧
      (qualified = mark ++ (space ++ "." ++ type) ∨ qualified = space ++ "." ++ type) := by
  unfold split at h
  split at h
  · next before after hs =>
    cases h
    obtain ⟨hsplit, -⟩ := Text.splitAtLast_eq_some_iff.mp hs
    refine ⟨by rw [Text.simpleName, hs, String.toList_ofList], ?_⟩
    have hto (front : List Char) (hfront : before = front ++ Text.dropLeading mark.toList before) :
        qualified = String.ofList front ++
          (String.ofList (Text.dropLeading mark.toList before) ++ "." ++ String.ofList after) := by
      refine String.toList_inj.mp ?_
      simp only [String.toList_append, String.toList_ofList, List.append_assoc]
      rw [hsplit, ← List.append_assoc, ← hfront]
      rfl
    unfold Text.dropLeading at hto ⊢
    by_cases hp : mark.toList.isPrefixOf before = true
    · rw [if_pos hp] at hto ⊢
      obtain ⟨rest, hrest⟩ := List.isPrefixOf_iff_prefix.mp hp
      refine Or.inl ?_
      have := hto mark.toList (by rw [← hrest, List.drop_left])
      rwa [String.ofList_toList] at this
    · rw [if_neg hp] at hto ⊢
      exact Or.inr (by simpa using hto [] rfl)
  · cases h

theorem type_of_spec {s : Spec} (h : spec config chain candidate = .ok s) :
    s.type.toList = Text.simpleName (lift config chain candidate).toList ∧
      s.baseType.toList = Text.simpleName candidate.toList := by
  obtain ⟨hb, hl⟩ := spec_eq_ok_iff.mp h
  exact ⟨(split_eq_ok hl).1, (split_eq_ok hb).1⟩

/-- A class does not name itself as its base if lifting made its name another one that is not
shorter. -/
theorem ne_base {s : Spec} (h : spec config chain candidate = .ok s) (hm : config.mark ≠ "")
    (hb : candidate = config.mark ++ (s.baseSpace ++ "." ++ s.baseType))
    (hlength : candidate.toList.length ≤ (lift config chain candidate).toList.length)
    (hne : lift config chain candidate ≠ candidate) :
    (s.space, s.type) ≠ (s.baseSpace, s.baseType) := by
  intro he
  obtain ⟨hspace, htype⟩ := Prod.mk.inj he
  obtain ⟨-, hl⟩ := spec_eq_ok_iff.mp h
  rcases (split_eq_ok hl).2 with hlift | hlift
  · exact hne (by rw [hlift, hspace, htype, ← hb])
  · -- without the mark the lifted name would be the candidate's without its mark
    have hmark : 0 < config.mark.toList.length := by
      refine List.length_pos_iff.mpr fun hnil => hm (String.toList_inj.mp hnil)
    have hlen := congrArg (fun t => t.toList.length) hb
    simp only [String.toList_append, List.length_append] at hlen
    rw [hlift, hspace, htype] at hlength
    simp only [String.toList_append, List.length_append] at hlength
    omega

end Rename

namespace Generator

variable {config : Config} {chain : Chain} {c : Compilation} {name candidate : String}

/-- The name of a test class holds the suffix or the token that tells it. -/
theorem Qualifies.carried (hc : config.Usable) (hl : Chain.standing config name = .link chain)
    (hp : c.Placed) (h : Qualifies config chain c candidate) :
    (chain.previousToken = "" → config.suffix.toList <:+: candidate.toList) ∧
      (chain.previousToken ≠ "" → chain.previousToken.toList <:+: candidate.toList) := by
  obtain ⟨a, t, ha, ht, hcar, rfl⟩ := h
  obtain ⟨hspace, houter⟩ := (hp a ha.mem).of_exports ht
  have hsimple : t.name.toList <:+: t.displayName.toList := by
    rw [NamedType.displayName_eq hspace houter (hcar.ne_empty hc hl)]
    simp only [String.toList_append]
    exact ((List.suffix_append _ _).trans (List.suffix_append _ _)).isInfix
  have haccept := (accepts_iff hc hl t.name).mpr hcar
  unfold Naming.accepts at haccept
  constructor
  · intro htoken
    rw [if_pos (by rw [htoken]; rfl)] at haccept
    exact (List.isSuffixOf_iff_suffix.mp haccept).isInfix.trans hsimple
  · intro htoken
    rw [if_neg (by simpa using htoken)] at haccept
    exact (Text.occursIn_iff.mp haccept).trans hsimple

/-- At the baseline a name gets longer: the root assembly's name grows, and so does the suffix. -/
theorem length_lt_lift_baseline (hc : config.Usable) {n : Nat}
    (hcurrent : chain.currentToken = Chain.token config n) (htoken : chain.previousToken = "")
    (hassembly : chain.previousAssembly.toList.length < chain.currentAssembly.toList.length)
    (hsuffix : config.suffix.toList <:+: candidate.toList) :
    candidate.toList.length < (Rename.lift config chain candidate).toList.length := by
  have hpos : 0 < chain.currentToken.toList.length := by
    rw [hcurrent]
    exact List.length_pos_iff.mpr (hc.token_ne_nil n)
  have hby : config.suffix.toList.length ≤
      (chain.currentToken.toList ++ config.suffix.toList).length := by
    rw [List.length_append]
    omega
  rw [Rename.toList_lift_baseline htoken]
  by_cases ho : chain.previousAssembly.toList <:+: candidate.toList
  · have hfirst := Text.length_replaceFirst chain.currentAssembly.toList ho
    have hsecond := Text.length_le_length_replaceFirst hby
      (Text.replaceFirst chain.previousAssembly.toList chain.currentAssembly.toList
        candidate.toList)
    omega
  · -- without the assembly's name the suffix is found where it stood
    have hadd := Text.length_replaceFirst
      (chain.currentToken.toList ++ config.suffix.toList) hsuffix
    rw [List.length_append] at hadd
    rw [Text.replaceFirst_absent ho]
    omega

/-- Lifting the name of a test class makes another name of it, and none that is shorter. -/
theorem Qualifies.lift_grows (hc : config.Usable) (hl : Chain.standing config name = .link chain)
    (hp : c.Placed) (h : Qualifies config chain c candidate) :
    candidate.toList.length ≤ (Rename.lift config chain candidate).toList.length ∧
      Rename.lift config chain candidate ≠ candidate := by
  obtain ⟨hsuffix, hprevious⟩ := h.carried hc hl hp
  obtain ⟨n, hchain, hstem, htier⟩ := hc.link_cases hl
  have hcurrent : chain.currentToken = Chain.token config n := by rw [hchain]; rfl
  rcases htier with ⟨-, htoken, hassembly⟩ | ⟨k, rfl, -, htoken, -⟩
  · have hroot : chain.previousAssembly.toList.length < chain.currentAssembly.toList.length := by
      have hname : chain.currentAssembly = name := by rw [hchain]; rfl
      have hlen := hstem.length_le
      rw [Chain.toList_stem, List.length_append, List.length_cons] at hlen
      rw [hassembly, hname]
      omega
    have hlonger := length_lt_lift_baseline hc hcurrent htoken hroot (hsuffix htoken)
    refine ⟨Nat.le_of_lt hlonger, ?_⟩
    intro he
    rw [he] at hlonger
    exact Nat.lt_irrefl _ hlonger
  · have hne : chain.previousToken.toList ≠ [] := htoken ▸ hc.token_ne_nil k
    have hnempty : chain.previousToken ≠ "" := fun h => hne (by rw [h]; rfl)
    have hlength : chain.previousToken.toList.length ≤ chain.currentToken.toList.length := by
      rw [htoken, hcurrent]
      exact Chain.length_token_le config k
    have hother : chain.previousToken.toList ≠ chain.currentToken.toList := by
      rw [htoken, hcurrent]
      exact Chain.token_ne_token_succ config k
    constructor
    · rw [Rename.toList_lift_regular hne]
      exact Text.length_le_length_replaceEach hne hlength _
    · intro he
      have hlift := congrArg String.toList he
      rw [Rename.toList_lift_regular hne] at hlift
      exact Text.replaceEach_ne hne hlength hother (hprevious hnempty) hlift

end Generator

end TierHost
