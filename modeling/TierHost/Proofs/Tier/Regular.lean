import TierHost.Proofs.Text.Pieces
import TierHost.Proofs.Tier.Climb
import TierHost.Proofs.Tier.Mirror
import TierHost.Proofs.Tier.Token

/-!
Lifting above the baseline. Tokens have no points, so every segment of a name is lifted on its own;
the token of the tier below is nowhere left in what comes out, and a name without the token of the
tier is got back by putting the token of the tier below in again.
-/

namespace TierHost

namespace NamedType

theorem suffix_intercalate (parts : List String) (last : String) :
    last.toList <:+ (".".intercalate (parts ++ [last])).toList := by
  rw [String.toList_intercalate, List.map_append]
  induction parts with
  | nil => exact (List.intercalate_singleton ▸ List.suffix_rfl)
  | cons part parts ih =>
    rw [List.map_cons, List.cons_append, List.intercalate_cons_of_ne_nil (by simp)]
    exact ih.trans (List.suffix_append _ _)

/-- A display name ends in the type's own name, whatever the paths say. -/
theorem suffix_displayName (t : NamedType) : t.name.toList <:+ t.displayName.toList := by
  by_cases hname : t.name.isEmpty = true
  · rw [String.isEmpty_iff.mp hname]
    exact List.nil_suffix
  · have hlast : [t.name].filter (fun part => !part.isEmpty) = [t.name] := by simp [hname]
    have hparts : [t.namespacePath, t.outerPath, t.name].filter (fun part => !part.isEmpty) =
        [t.namespacePath, t.outerPath].filter (fun part => !part.isEmpty) ++ [t.name] := by
      calc ([t.namespacePath, t.outerPath] ++ [t.name]).filter (fun part => !part.isEmpty)
          = [t.namespacePath, t.outerPath].filter (fun part => !part.isEmpty) ++
              [t.name].filter (fun part => !part.isEmpty) := List.filter_append _ _
        _ = [t.namespacePath, t.outerPath].filter (fun part => !part.isEmpty) ++ [t.name] := by
            rw [hlast]
    rw [displayName, qualifiedName, hparts, String.toList_append]
    exact (suffix_intercalate _ _).trans (List.suffix_append _ _)

end NamedType

namespace Generator

variable {config : Config} {chain : Chain} {c : Compilation} {s : Session} {names : List String}
  {name : String}

/-- What is collected above the baseline has the token of the tier below in its name. -/
theorem infix_of_mem_candidates (htoken : chain.previousToken ≠ "")
    (hr : ((candidates config chain c).runIn s).1 = .ok names) (hn : name ∈ names) :
    chain.previousToken.toList <:+: name.toList := by
  have hnames : names = candidateNames config chain c :=
    (polls_candidates config chain c).eq_of_runIn hr
  rw [hnames, candidateNames] at hn
  cases hp : c.reference? chain.previousAssembly with
  | none =>
    rw [hp] at hn
    cases hn
  | some previous =>
    rw [hp] at hn
    dsimp only at hn
    rw [Text.mem_sortedDistinct, Naming.mem_found] at hn
    obtain ⟨t, -, haccept, rfl⟩ := hn
    have hempty : ¬ chain.previousToken.isEmpty = true := by simpa using htoken
    rw [Naming.accepts, if_neg hempty] at haccept
    exact (Text.occursIn_iff.mp haccept).trans t.suffix_displayName.isInfix

theorem exists_ofTier_succ (hc : config.Usable) (h : resolved config name = .ok (some chain))
    (htier : config.baseline < chain.tier) :
    ∃ k : Nat, config.baseline ≤ k ∧ chain = Chain.ofTier config (k + 1 : Nat) name := by
  have hpositive := hc.positive
  obtain ⟨digits, -, -, -, rfl⟩ := resolved_eq_chain_iff.mp h
  generalize Nat.ofDigitChars 10 digits 0 = n at htier ⊢
  have htier' : config.baseline < n := htier
  obtain ⟨k, rfl⟩ : ∃ k, n = k + 1 := ⟨n - 1, by omega⟩
  exact ⟨k, by omega, rfl⟩

end Generator

namespace Config.Usable

variable {config : Config} {k : Nat}

/-- The token of a tier does not occur in the next one: the words would coincide, and no number goes
on to its successor. -/
theorem not_infix_token_succ (h : config.Usable) (hk : 0 < k) :
    ¬ (Chain.token config k).toList <:+: (Chain.token config (k + 1 : Nat)).toList := by
  rw [Chain.toList_token, Chain.toList_token]
  intro hin
  have hdigits : ∀ c ∈ config.language.toList, c ∉ (toString (k + 1)).toList := by
    intro c hc
    exact Text.notMem_toString (h.of_mem hc).2 (k + 1)
  exact Text.not_prefix_toString_succ hk (Text.prefix_of_infix h.named hdigits hin)

/-- No token of the tier below is left, or comes about at a seam, when a text is lifted. -/
theorem not_infix_lifted (h : config.Usable) (hk : 0 < k) (s : List Char) :
    ¬ (Chain.token config k).toList <:+:
      Text.replaceEach (Chain.token config k).toList (Chain.token config (k + 1 : Nat)).toList s :=
  Text.not_infix_replaceEach (h.token_ne_nil k) (Chain.length_token_le config k)
    (h.not_infix_token_succ hk) (h.apart_token k (k + 1)) (h.apart_token (k + 1) k)

/-- Lifting is undone by putting the token of the tier below in for that of the tier, in a text that
had none of the latter. -/
theorem replaceEach_lifted (h : config.Usable) (k : Nat) {s : List Char}
    (habsent : ¬ (Chain.token config (k + 1 : Nat)).toList <:+: s) :
    Text.replaceEach (Chain.token config (k + 1 : Nat)).toList (Chain.token config k).toList
      (Text.replaceEach (Chain.token config k).toList (Chain.token config (k + 1 : Nat)).toList s) =
        s := by
  rw [Text.replaceEach_replaceEach (h.token_ne_nil k) (h.token_ne_nil (k + 1))
    (h.apart_token (k + 1) (k + 1)) habsent, Text.replaceEach_self (h.token_ne_nil k)]

end Config.Usable

namespace Rename

variable {config : Config} {chain : Chain} {name candidate rest : String} {s : Spec} {k : Nat}

theorem baseName_of_spec (hm : config.mark = "global::")
    (h : spec config chain (globalMark ++ rest) = .ok s) :
    s.baseName = globalMark ++ rest := by
  have hmark : '.' ∉ globalMark.toList := by decide
  obtain ⟨hb, -⟩ := spec_eq_ok_iff.mp h
  rw [hm] at hb
  obtain ⟨hrest, -⟩ := (split_marked_iff hmark).mp hb
  rw [Spec.baseName, ← hrest]

/-- Above the baseline the namespace and the simple name are lifted apart from one another. -/
theorem parts_of_spec (hc : config.Usable) (hm : config.mark = "global::")
    (hk : config.baseline ≤ k) (hpoint : '.' ∈ rest.toList)
    (h : spec config (Chain.ofTier config (k + 1 : Nat) name) (globalMark ++ rest) = .ok s) :
    s.space.toList = Text.replaceEach (Chain.token config k).toList
        (Chain.token config (k + 1 : Nat)).toList s.baseSpace.toList ∧
      s.type.toList = Text.replaceEach (Chain.token config k).toList
        (Chain.token config (k + 1 : Nat)).toList s.baseType.toList := by
  obtain ⟨s', hs', hfull, -⟩ := exists_spec_regular hc hm hk name hpoint
  obtain rfl : s = s' := Except.ok.inj (h.symm.trans hs')
  have hbase := baseName_of_spec hm h
  rw [← hbase] at h
  have htype := Generator.type_eq_replaceEach hc hk h
  have hparts : s.space.toList ++ '.' :: s.type.toList =
      Text.replaceEach (Chain.token config k).toList
          (Chain.token config (k + 1 : Nat)).toList s.baseSpace.toList ++
        '.' :: Text.replaceEach (Chain.token config k).toList
          (Chain.token config (k + 1 : Nat)).toList s.baseType.toList := by
    rw [← hbase, Spec.fullName, Spec.baseName, toList_marked, toList_marked,
      hc.replaceEach_marked, toList_qualified, toList_qualified,
      Text.replaceEach_append_cons (hc.token_ne_nil k) (hc.point_notMem_token k)] at hfull
    exact List.append_cancel_left hfull
  -- what is left of the full names in front of the simple ones
  rw [htype] at hparts
  exact ⟨List.append_cancel_right hparts, htype⟩

/-- Lifting a second time finds nothing to replace. -/
theorem exists_spec_again (hc : config.Usable) (hm : config.mark = "global::")
    (hk : config.baseline ≤ k) (htype : '.' ∉ s.type.toList)
    (hgone : ¬ (Chain.token config k).toList <:+: s.fullName.toList) :
    ∃ again, spec config (Chain.ofTier config (k + 1 : Nat) name) s.fullName = .ok again ∧
      again.space = s.space ∧ again.type = s.type := by
  have hpoint : '.' ∈ (s.space ++ "." ++ s.type).toList := by
    rw [toList_qualified]
    exact List.mem_append_right _ List.mem_cons_self
  obtain ⟨again, hagain, hfull, htype'⟩ := exists_spec_regular hc hm hk name hpoint
  have hsame : again.fullName = s.fullName := by
    apply String.toList_inj.mp
    rw [hfull]
    exact Text.replaceEach_absent hgone
  -- the two marked names are the same, and so are the parts that they are split into
  have hsplit := split_fullName hm htype'
  rw [hsame, split_fullName hm htype] at hsplit
  obtain ⟨hspace, htype''⟩ := Prod.mk.inj (Except.ok.inj hsplit)
  exact ⟨again, hagain, hspace.symm, htype''.symm⟩

/-- Above the baseline every segment of a name is lifted on its own. The token of the tier below is
nowhere left, so that lifting again changes nothing, and no name that can be collected for the tier
comes out, in particular not the base's own, which comes out only when it has no such token. -/
theorem spec_by_segment {config : Config} {s₀ : Session} {name candidate : String} {chain : Chain}
    (hvalid : ((Generator.ensureValid config).runIn s₀).1 = .ok ())
    (hmark : config.mark = "global::") (h : Generator.resolved config name = .ok (some chain))
    (htier : config.baseline < chain.tier) (hcandidate : Liftable candidate) :
    ∃ s, spec config chain candidate = .ok s ∧ s.baseName = candidate ∧
      Text.pieces '.' s.space.toList = (Text.pieces '.' s.baseSpace.toList).map
        (Text.replaceAll chain.previousToken.toList chain.currentToken.toList) ∧
      Text.pieces '.' s.type.toList = (Text.pieces '.' s.baseType.toList).map
        (Text.replaceAll chain.previousToken.toList chain.currentToken.toList) ∧
      ¬ chain.previousToken.toList <:+: s.space.toList ∧
      ¬ chain.previousToken.toList <:+: s.type.toList ∧
      (∃ again, spec config chain s.fullName = .ok again ∧ again.space = s.space ∧
        again.type = s.type) ∧
      (∀ (c : Compilation) (s₁ : Session) (names : List String),
        ((Generator.candidates config chain c).runIn s₁).1 = .ok names → s.fullName ∉ names) ∧
      (s.fullName = s.baseName ↔ ¬ chain.previousToken.toList <:+: candidate.toList) := by
  have hc : config.Usable := Config.usable_of_problems (Generator.ensureValid_eq_ok_iff.mp hvalid)
  have hpositive := hc.positive
  obtain ⟨k, hk, rfl⟩ := Generator.exists_ofTier_succ hc h htier
  obtain ⟨rest, rfl, hpoint⟩ := hcandidate.exists_rest
  have hk' : 0 < k := by omega
  have hne := hc.token_ne_nil k
  have hold := hc.point_notMem_token k
  have hnew := hc.point_notMem_token (k + 1)
  obtain ⟨s, hs, hfull, htype⟩ := exists_spec_regular hc hmark hk name hpoint
  obtain ⟨hspaces, htypes⟩ := parts_of_spec hc hmark hk hpoint hs
  have hbase := baseName_of_spec hmark hs
  have hgone : ¬ (Chain.token config k).toList <:+: s.fullName.toList := by
    rw [hfull]
    exact hc.not_infix_lifted hk' _
  have hprevious : (Chain.ofTier config (k + 1 : Nat) name).previousToken = Chain.token config k := by
    rw [Chain.ofTier_succ hk]
  have hcurrent : (Chain.ofTier config (k + 1 : Nat) name).currentToken =
      Chain.token config (k + 1 : Nat) := rfl
  rw [hprevious, hcurrent, Text.replaceAll_eq hne]
  refine ⟨s, hs, hbase, ?_, ?_, ?_, ?_, exists_spec_again hc hmark hk htype hgone, ?_, ?_⟩
  · rw [hspaces]
    exact Text.pieces_replaceEach hne hold hnew _
  · rw [htypes]
    exact Text.pieces_replaceEach hne hold hnew _
  · rw [hspaces]
    exact hc.not_infix_lifted hk' _
  · rw [htypes]
    exact hc.not_infix_lifted hk' _
  · -- what is collected holds the token that is gone
    intro c s₁ names hr hmem
    have hempty : (Chain.ofTier config (k + 1 : Nat) name).previousToken ≠ "" := by
      rw [hprevious]
      exact fun he => hne (by rw [he]; rfl)
    have hin := Generator.infix_of_mem_candidates hempty hr hmem
    rw [hprevious] at hin
    exact hgone hin
  · rw [hbase]
    constructor
    · intro he hin
      rw [he] at hgone
      exact hgone hin
    · intro habsent
      apply String.toList_inj.mp
      rw [hfull]
      exact Text.replaceEach_absent habsent

/-- From nine to ten a digit is added, in front of a digit that was there. -/
theorem spec_by_segment_ten :
    ((Generator.ensureValid .default).runIn (.start none)).1 = .ok () ∧
      ∃ chain, Generator.resolved .default "StyleCop.Analyzers.Test.CSharp10" = .ok (some chain) ∧
        Config.default.baseline < chain.tier ∧
        Liftable "global::Tests.CSharp9.CSharp9.FooCSharp99UnitTests" ∧
        ∃ s, spec .default chain "global::Tests.CSharp9.CSharp9.FooCSharp99UnitTests" = .ok s ∧
          s.baseSpace = "Tests.CSharp9.CSharp9" ∧
          Text.pieces '.' s.space.toList =
            ["Tests".toList, "CSharp10".toList, "CSharp10".toList] ∧
          ¬ "CSharp9".toList <:+: s.type.toList ∧ s.fullName ≠ s.baseName := by
  have hvalid : ((Generator.ensureValid .default).runIn (.start none)).1 = .ok () :=
    Generator.ensureValid_eq_ok_iff.mpr (by decide)
  have hn : Generator.Numbered .default "StyleCop.Analyzers.Test.CSharp10" ['1', '0'] :=
    ⟨by decide, by decide, by simp⟩
  have h := Generator.resolved_eq_chain_iff.mpr ⟨_, hn, by decide, by decide, rfl⟩
  have hcandidate : Liftable "global::Tests.CSharp9.CSharp9.FooCSharp99UnitTests" :=
    ⟨List.isPrefixOf_iff_prefix.mp (by decide), by decide⟩
  obtain ⟨s, hs, hbase, hspaces, -, -, htype, -, -, hself⟩ :=
    spec_by_segment hvalid rfl h (by decide) hcandidate
  have hspace : s.baseSpace = "Tests.CSharp9.CSharp9" := by
    obtain ⟨hb, -⟩ := spec_eq_ok_iff.mp hs
    have hsplit : split "global::" "global::Tests.CSharp9.CSharp9.FooCSharp99UnitTests" =
        .ok ("Tests.CSharp9.CSharp9", "FooCSharp99UnitTests") := by decide +kernel
    exact (Prod.mk.inj (Except.ok.inj (hb.symm.trans hsplit))).1
  refine ⟨hvalid, _, h, by decide, hcandidate, s, hs, hspace, ?_, htype, ?_⟩
  · rw [hspaces, hspace]
    decide +kernel
  · intro he
    apply hself.mp he
    rw [← Text.occursIn_iff]
    decide

/-- Above the baseline a name without the tier's token is got back from what it is lifted to, by
putting the token of the tier below in for that of the tier. So no two of these names are lifted to
the same one. -/
theorem spec_reversible {config : Config} {s₀ : Session} {name : String} {chain : Chain}
    (hvalid : ((Generator.ensureValid config).runIn s₀).1 = .ok ())
    (hmark : config.mark = "global::") (h : Generator.resolved config name = .ok (some chain))
    (htier : config.baseline < chain.tier) :
    (∀ candidate, Liftable candidate → ¬ chain.currentToken.toList <:+: candidate.toList →
      ∃ s, spec config chain candidate = .ok s ∧
        Text.replaceAll chain.currentToken.toList chain.previousToken.toList s.fullName.toList =
          candidate.toList) ∧
    (∀ candidate candidate' s s', Liftable candidate → Liftable candidate' →
      ¬ chain.currentToken.toList <:+: candidate.toList →
      ¬ chain.currentToken.toList <:+: candidate'.toList →
      spec config chain candidate = .ok s → spec config chain candidate' = .ok s' →
      (s.space, s.type) = (s'.space, s'.type) → candidate = candidate') := by
  have hc : config.Usable := Config.usable_of_problems (Generator.ensureValid_eq_ok_iff.mp hvalid)
  obtain ⟨k, hk, rfl⟩ := Generator.exists_ofTier_succ hc h htier
  have hprevious : (Chain.ofTier config (k + 1 : Nat) name).previousToken = Chain.token config k := by
    rw [Chain.ofTier_succ hk]
  have hcurrent : (Chain.ofTier config (k + 1 : Nat) name).currentToken =
      Chain.token config (k + 1 : Nat) := rfl
  rw [hprevious, hcurrent]
  have hreverse : ∀ candidate, Liftable candidate →
      ¬ (Chain.token config (k + 1 : Nat)).toList <:+: candidate.toList →
      ∃ s, spec config (Chain.ofTier config (k + 1 : Nat) name) candidate = .ok s ∧
        Text.replaceAll (Chain.token config (k + 1 : Nat)).toList (Chain.token config k).toList
          s.fullName.toList = candidate.toList := by
    intro candidate hcandidate habsent
    obtain ⟨rest, rfl, hpoint⟩ := hcandidate.exists_rest
    obtain ⟨s, hs, hfull, -⟩ := exists_spec_regular hc hmark hk name hpoint
    refine ⟨s, hs, ?_⟩
    rw [Text.replaceAll_eq (hc.token_ne_nil (k + 1)), hfull]
    exact hc.replaceEach_lifted k habsent
  refine ⟨hreverse, ?_⟩
  intro candidate candidate' s s' hcandidate hcandidate' habsent habsent' hs hs' he
  obtain ⟨t, ht, hback⟩ := hreverse candidate hcandidate habsent
  obtain ⟨t', ht', hback'⟩ := hreverse candidate' hcandidate' habsent'
  obtain rfl : s = t := Except.ok.inj (hs.symm.trans ht)
  obtain rfl : s' = t' := Except.ok.inj (hs'.symm.trans ht')
  obtain ⟨hspace, htype⟩ := Prod.mk.inj he
  have hfull : s.fullName = s'.fullName := by rw [Spec.fullName, Spec.fullName, hspace, htype]
  apply String.toList_inj.mp
  rw [← hback, ← hback', hfull]

/-- The digit behind the token stays where it is, on the way up and on the way back. -/
theorem spec_reversible_ten :
    ((Generator.ensureValid .default).runIn (.start none)).1 = .ok () ∧
      ∃ chain, Generator.resolved .default "StyleCop.Analyzers.Test.CSharp10" = .ok (some chain) ∧
        Config.default.baseline < chain.tier ∧
        Liftable "global::Tests.CSharp9.CSharp9.FooCSharp99UnitTests" ∧
        ¬ chain.currentToken.toList <:+:
          "global::Tests.CSharp9.CSharp9.FooCSharp99UnitTests".toList ∧
        ∃ s, spec .default chain "global::Tests.CSharp9.CSharp9.FooCSharp99UnitTests" = .ok s ∧
          Text.replaceAll "CSharp10".toList "CSharp9".toList s.fullName.toList =
            "global::Tests.CSharp9.CSharp9.FooCSharp99UnitTests".toList := by
  have hvalid : ((Generator.ensureValid .default).runIn (.start none)).1 = .ok () :=
    Generator.ensureValid_eq_ok_iff.mpr (by decide)
  have hn : Generator.Numbered .default "StyleCop.Analyzers.Test.CSharp10" ['1', '0'] :=
    ⟨by decide, by decide, by simp⟩
  have h := Generator.resolved_eq_chain_iff.mpr ⟨_, hn, by decide, by decide, rfl⟩
  have hcandidate : Liftable "global::Tests.CSharp9.CSharp9.FooCSharp99UnitTests" :=
    ⟨List.isPrefixOf_iff_prefix.mp (by decide), by decide⟩
  have habsent : ¬ (Chain.ofTier .default (Nat.ofDigitChars 10 ['1', '0'] 0 : Nat)
      "StyleCop.Analyzers.Test.CSharp10").currentToken.toList <:+:
        "global::Tests.CSharp9.CSharp9.FooCSharp99UnitTests".toList := by
    rw [← Text.occursIn_iff]
    decide
  obtain ⟨hreverse, -⟩ := spec_reversible hvalid rfl h (by decide)
  exact ⟨hvalid, _, h, by decide, hcandidate, habsent, hreverse _ hcandidate habsent⟩

end Rename

end TierHost
