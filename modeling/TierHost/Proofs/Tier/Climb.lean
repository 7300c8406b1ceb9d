import TierHost.Proofs.Text.Apart
import TierHost.Proofs.Tier.Links
import TierHost.Proofs.Tier.Rename

/-!
Names that are lifted through several tiers above the baseline. The token of a tier occurs in what is
lifted to it only where it was put in, so that lifting step by step puts the last token where the
first one stood.
-/

namespace TierHost

/-- The name of the class to emit, marked as starting from the global namespace. -/
def Spec.fullName (s : Spec) : String := globalMark ++ (s.space ++ "." ++ s.type)

namespace Config.Usable

variable {config : Config}

/-- Tokens overlap only as a whole: the digits of one are not in the word of another. -/
theorem apart_token (h : config.Usable) (m n : Nat) :
    Text.Apart (Chain.token config m).toList (Chain.token config n).toList := by
  rw [Chain.toList_token, Chain.toList_token]
  apply Text.apart_append h.named
  · rw [Text.toList_toString]
    exact Nat.toDigits_ne_nil
  · intro c hc
    exact Text.notMem_toString (h.of_mem hc).2 m

/-- Replacing a token leaves the global mark as it is. -/
theorem replaceEach_marked (h : config.Usable) (n : Nat) (by_ rest : List Char) :
    Text.replaceEach (Chain.token config n).toList by_ (globalMark.toList ++ rest) =
      globalMark.toList ++ Text.replaceEach (Chain.token config n).toList by_ rest := by
  have hcolon : ':' ∉ (Chain.token config n).toList :=
    h.notMem_token (by decide) (by decide) (by decide) n
  have habsent : ¬ (Chain.token config n).toList <:+: "global:".toList := by
    intro hocc
    obtain ⟨c, hc, hdigit⟩ := Chain.exists_digit_mem_token config n
    have hnone : "global:".toList.any Char.isDigit = false := by decide
    have hany : "global:".toList.any Char.isDigit = true :=
      List.any_eq_true.mpr ⟨c, hocc.subset hc, hdigit⟩
    rw [hnone] at hany
    cases hany
  calc Text.replaceEach (Chain.token config n).toList by_ (globalMark.toList ++ rest)
      = Text.replaceEach (Chain.token config n).toList by_ ("global:".toList ++ ':' :: rest) := rfl
    _ = Text.replaceEach (Chain.token config n).toList by_ "global:".toList ++
          ':' :: Text.replaceEach (Chain.token config n).toList by_ rest :=
        Text.replaceEach_append_cons (h.token_ne_nil n) hcolon _ _
    _ = globalMark.toList ++ Text.replaceEach (Chain.token config n).toList by_ rest := by
        rw [Text.replaceEach_absent habsent]
        rfl

end Config.Usable

/-- A link is that of its tier, under the name that it was resolved from. -/
theorem Generator.eq_ofTier {config : Config} {name : String} {chain : Chain} {n : Nat}
    (h : resolved config name = .ok (some chain)) (ht : chain.tier = n) :
    chain = Chain.ofTier config n chain.currentAssembly := by
  obtain ⟨digits, -, -, -, rfl⟩ := resolved_eq_chain_iff.mp h
  have hvalue : ((Nat.ofDigitChars 10 digits 0 : Nat) : Int) = n := ht
  rw [hvalue]
  rfl

namespace Rename

/-- A name is lifted through consecutive tiers, one link after the other; what one makes of it is
marked and handed to the next. -/
def climb (config : Config) (links : Nat → Chain) (candidate : String) : Nat → Except Failure Spec
  | 0 => spec config (links 0) candidate
  | k + 1 => do
    let below ← climb config links candidate k
    spec config (links (k + 1)) below.fullName

variable {config : Config} {candidate : String}

theorem split_fullName {s : Spec} (hm : config.mark = "global::") (ht : '.' ∉ s.type.toList) :
    split config.mark s.fullName = .ok (s.space, s.type) := by
  have hmark : '.' ∉ globalMark.toList := by decide
  rw [hm]
  exact (split_marked_iff hmark).mpr ⟨rfl, ht⟩

/-- Above the baseline a marked name with a point is lifted to the one that has the tier's token in
place of the token below. -/
theorem exists_spec_regular (hc : config.Usable) (hm : config.mark = "global::") {k : Nat}
    (hk : config.baseline ≤ k) (name : String) {rest : String}
    (hpoint : '.' ∈ rest.toList) :
    ∃ s, spec config (Chain.ofTier config (k + 1 : Nat) name) (globalMark ++ rest) = .ok s ∧
      s.fullName.toList = Text.replaceEach (Chain.token config k).toList
        (Chain.token config (k + 1 : Nat)).toList (globalMark ++ rest).toList ∧
      '.' ∉ s.type.toList := by
  have hmark : '.' ∉ globalMark.toList := by decide
  have hlift : lift config (Chain.ofTier config (k + 1 : Nat) name) (globalMark ++ rest) =
      globalMark ++ String.ofList (Text.replaceEach (Chain.token config k).toList
        (Chain.token config (k + 1 : Nat)).toList rest.toList) := by
    rw [Chain.ofTier_succ hk, ← String.toList_inj, toList_lift_regular (hc.token_ne_nil k),
      String.toList_append, hc.replaceEach_marked, String.toList_append, String.toList_ofList]
  have hpoint' : '.' ∈ (globalMark ++ rest).toList := by
    rw [String.toList_append]
    exact List.mem_append_right _ hpoint
  have hpoint'' : '.' ∈ (lift config (Chain.ofTier config (k + 1 : Nat) name)
      (globalMark ++ rest)).toList := by
    rw [hlift, String.toList_append, String.toList_ofList]
    exact List.mem_append_right _
      (Text.mem_replaceEach (hc.token_ne_nil k) hpoint (hc.point_notMem_token k))
  obtain ⟨baseSpace, baseType, hb⟩ := exists_split config.mark hpoint'
  obtain ⟨space, type, hs⟩ := exists_split config.mark hpoint''
  refine ⟨⟨space, type, baseSpace, baseType⟩, spec_eq_ok_iff.mpr ⟨hb, hs⟩, ?_⟩
  rw [hlift, hm] at hs
  obtain ⟨hfull, htype⟩ := (split_marked_iff hmark).mp hs
  refine ⟨?_, htype⟩
  rw [String.toList_append, hc.replaceEach_marked]
  show (globalMark ++ (space ++ "." ++ type)).toList = _
  rw [← hfull, String.toList_append, String.toList_ofList]

/-- Lifting through the tiers puts the token of the last one where that of the tier below the first
one stood, if the name holds none of the tokens on the way. -/
theorem exists_climb (hc : config.Usable) (hm : config.mark = "global::") {links : Nat → Chain}
    {names : Nat → String} {m k : Nat} (hb : config.baseline ≤ m)
    (hlinks : ∀ i ≤ k, links i = Chain.ofTier config (m + i + 1 : Nat) (names i)) {rest : String}
    (hpoint : '.' ∈ rest.toList)
    (habsent : ∀ i < k,
      ¬ (Chain.token config (m + i + 1 : Nat)).toList <:+: (globalMark ++ rest).toList) :
    ∃ s, climb config links (globalMark ++ rest) k = .ok s ∧
      s.fullName.toList = Text.replaceEach (Chain.token config m).toList
        (Chain.token config (m + k + 1 : Nat)).toList (globalMark ++ rest).toList ∧
      '.' ∉ s.type.toList := by
  -- by induction on the tiers: what is lifted so far has the last token, and only that one, put in
  induction k with
  | zero =>
    obtain ⟨s, hs, hfull, htype⟩ := exists_spec_regular hc hm hb (names 0) hpoint
    refine ⟨s, ?_, hfull, htype⟩
    rw [climb, hlinks 0 (Nat.le_refl 0)]
    exact hs
  | succ k ih =>
    obtain ⟨below, hbelow, hfull, -⟩ := ih (fun i hi => hlinks i (Nat.le_succ_of_le hi))
      (fun i hi => habsent i (Nat.lt_succ_of_lt hi))
    have hnext : config.baseline ≤ (m + k + 1 : Nat) := by omega
    have hpoint' : '.' ∈ (below.space ++ "." ++ below.type).toList := by
      simp only [String.toList_append]
      exact List.mem_append_left _ (List.mem_append_right _ List.mem_cons_self)
    obtain ⟨s, hs, hfull', htype⟩ :=
      exists_spec_regular hc hm hnext (names (k + 1)) hpoint'
    refine ⟨s, ?_, ?_, htype⟩
    · rw [climb, except_bind_eq_ok]
      refine ⟨below, hbelow, ?_⟩
      rw [hlinks (k + 1) (Nat.le_refl _)]
      exact hs
    · have hapart := hc.apart_token (m + k + 1) (m + k + 1)
      calc s.fullName.toList
          = Text.replaceEach (Chain.token config (m + k + 1 : Nat)).toList
              (Chain.token config (m + k + 1 + 1 : Nat)).toList below.fullName.toList := hfull'
        _ = Text.replaceEach (Chain.token config (m + k + 1 : Nat)).toList
              (Chain.token config (m + k + 1 + 1 : Nat)).toList
              (Text.replaceEach (Chain.token config m).toList
                (Chain.token config (m + k + 1 : Nat)).toList (globalMark ++ rest).toList) := by
            rw [hfull]
        _ = Text.replaceEach (Chain.token config m).toList
              (Chain.token config (m + (k + 1) + 1 : Nat)).toList (globalMark ++ rest).toList :=
            Text.replaceEach_replaceEach (hc.token_ne_nil m) (hc.token_ne_nil (m + k + 1)) hapart
              (habsent k (Nat.lt_succ_self k))

/-- Lifting a name through consecutive tiers above the baseline comes to putting the token of the
last tier in for every one of the tier below the first, and splitting at the last point. -/
theorem climb_eq_split {config : Config} {s₀ : Session} {links : Nat → Chain} {n k : Nat}
    {candidate : String} (hvalid : ((Generator.ensureValid config).runIn s₀).1 = .ok ())
    (hmark : config.mark = "global::") (hn : config.baseline < n)
    (hlinks : ∀ i ≤ k, ∃ name, Generator.resolved config name = .ok (some (links i)) ∧
      (links i).tier = (n + i : Nat))
    (hstart : globalMark.toList <+: candidate.toList) (hpoint : '.' ∈ candidate.toList)
    (habsent : ∀ i < k, ¬ (Chain.token config (n + i : Nat)).toList <:+: candidate.toList) :
    ∃ s, climb config links candidate k = .ok s ∧
      split config.mark (String.ofList (Text.replaceAll (Chain.token config (n - 1 : Nat)).toList
        (Chain.token config (n + k : Nat)).toList candidate.toList)) = .ok (s.space, s.type) := by
  have hc : config.Usable := Config.usable_of_problems (Generator.ensureValid_eq_ok_iff.mp hvalid)
  have hpositive := hc.positive
  obtain ⟨m, rfl⟩ : ∃ m, n = m + 1 := ⟨n - 1, by omega⟩
  have hb : config.baseline ≤ m := by omega
  obtain ⟨tail, htail⟩ := hstart
  obtain ⟨rest, rfl⟩ : ∃ rest, candidate = globalMark ++ rest := by
    refine ⟨String.ofList tail, String.toList_inj.mp ?_⟩
    rw [String.toList_append, String.toList_ofList, htail]
  have hrest : '.' ∈ rest.toList := by
    have hmark' : '.' ∉ globalMark.toList := by decide
    rw [String.toList_append, List.mem_append] at hpoint
    exact hpoint.resolve_left hmark'
  have hlinks' : ∀ i ≤ k,
      links i = Chain.ofTier config (m + i + 1 : Nat) (links i).currentAssembly := by
    intro i hi
    obtain ⟨name, hname, htier⟩ := hlinks i hi
    rw [Nat.add_right_comm] at htier
    exact Generator.eq_ofTier hname htier
  have habsent' : ∀ i < k,
      ¬ (Chain.token config (m + i + 1 : Nat)).toList <:+: (globalMark ++ rest).toList := by
    intro i hi
    rw [Nat.add_right_comm]
    exact habsent i hi
  obtain ⟨s, hs, hfull, htype⟩ := exists_climb hc hmark hb hlinks' hrest habsent'
  refine ⟨s, hs, ?_⟩
  have hsplit := split_fullName hmark htype
  have hne : ¬ (Chain.token config m).toList.isEmpty = true := by simpa using hc.token_ne_nil m
  rw [Nat.add_sub_cancel, Text.replaceAll, if_neg hne, Nat.add_right_comm, ← hfull,
    String.ofList_toList]
  exact hsplit

/-- The links of the tiers from the ninth on. -/
def linksFromNine (i : Nat) : Chain :=
  Chain.ofTier .default (9 + i : Nat) (Chain.assemblyOf .default (9 + i))

/-- Two digits take the place of one on the way, in front of another digit of the name. -/
theorem climb_eq_split_fromNine :
    ((Generator.ensureValid .default).runIn (.start none)).1 = .ok () ∧
      (∀ i ≤ 2, ∃ name, Generator.resolved .default name = .ok (some (linksFromNine i)) ∧
        (linksFromNine i).tier = (9 + i : Nat)) ∧
      (∀ i < 2, ¬ (Chain.token .default (9 + i : Nat)).toList <:+:
        "global::Tests.CSharp8.FooCSharp80UnitTests".toList) ∧
      ∃ s, climb .default linksFromNine "global::Tests.CSharp8.FooCSharp80UnitTests" 2 = .ok s ∧
        s.space = "Tests.CSharp11" ∧ s.type = "FooCSharp110UnitTests" := by
  have hvalid : ((Generator.ensureValid .default).runIn (.start none)).1 = .ok () :=
    Generator.ensureValid_eq_ok_iff.mpr (by decide)
  have hlinks : ∀ i ≤ 2, ∃ name, Generator.resolved .default name = .ok (some (linksFromNine i)) ∧
      (linksFromNine i).tier = (9 + i : Nat) := by
    intro i hi
    have hread : (toString (9 + i)).toList.length ≤ Text.digitLimit := by
      obtain rfl | rfl | rfl : i = 0 ∨ i = 1 ∨ i = 2 := by omega
      · decide
      · decide
      · decide
    have hbaseline : Config.default.baseline ≤ (9 + i : Nat) := by
      show (7 : Int) ≤ (9 + i : Nat)
      omega
    refine ⟨Chain.assemblyOf .default (9 + i), ?_, rfl⟩
    rw [Generator.resolved_eq_link_iff]
    exact Chain.standing_assemblyOf_iff.mpr ⟨hread, hbaseline, rfl⟩
  have habsent : ∀ i < 2, ¬ (Chain.token .default (9 + i : Nat)).toList <:+:
      "global::Tests.CSharp8.FooCSharp80UnitTests".toList := by
    intro i hi
    rw [← Text.occursIn_iff]
    obtain rfl | rfl : i = 0 ∨ i = 1 := by omega
    · decide
    · decide
  obtain ⟨s, hs, hsplit⟩ := climb_eq_split (n := 9) hvalid rfl (by decide) hlinks
    (List.isPrefixOf_iff_prefix.mp (by decide)) (by decide) habsent
  have hparts : split "global::" (String.ofList (Text.replaceAll (Chain.token .default 8).toList
      (Chain.token .default 11).toList "global::Tests.CSharp8.FooCSharp80UnitTests".toList)) =
        .ok ("Tests.CSharp11", "FooCSharp110UnitTests") := by
    decide +kernel
  obtain ⟨hspace, htype⟩ := Prod.mk.inj (Except.ok.inj (hsplit.symm.trans hparts))
  exact ⟨hvalid, hlinks, habsent, s, hs, hspace, htype⟩

end Rename

end TierHost
