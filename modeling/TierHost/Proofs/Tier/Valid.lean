import TierHost.Proofs.Text.Decimal
import TierHost.Proofs.Tier.Grammar
import TierHost.Proofs.Tier.Outcome

/-!
What a usable configuration promises, and the links of its chain: the name of a linked assembly is
the stem and digits, and the token of the tier below is a word and a number.
-/

namespace TierHost

/-- A configuration without problems, as far as the chain depends on it. -/
structure Config.Usable (c : Config) : Prop where
  named : c.language.toList ≠ []
  word : ∀ ch ∈ c.language.toList, isNameStart ch = true ∨ ch = '\n'
  positive : 0 < c.baseline
  suffixed : c.suffix ≠ ""

theorem Config.usable_of_problems {c : Config} (h : c.problems = []) : c.Usable := by
  have hc := problems_eq_nil_iff.mp h
  obtain ⟨hne, hall⟩ := hc.language
  rw [unfed, String.toList_ofList] at hne hall
  refine ⟨?_, ?_, hc.baseline, hc.suffix⟩
  · obtain ⟨ch, hch⟩ := List.exists_mem_of_ne_nil _ hne
    exact List.ne_nil_of_mem (Text.mem_of_mem_dropFeed hch)
  · intro ch hch
    exact (Text.mem_dropFeed_or hch).imp (fun h => isNameStart_iff.mpr (hall ch h)) fun h => h.1

/-- The root test assembly of a configuration without problems is named in identifiers and points,
perhaps with line feeds. -/
theorem Config.notMem_rootAssembly {c : Config} (h : c.problems = []) {ch : Char}
    (hname : isNameChar ch = false) (hpoint : ch ≠ '.') (hfeed : ch ≠ '\n') :
    ch ∉ c.rootAssembly.toList := by
  have hc := problems_eq_nil_iff.mp h
  have hpath {s : String} (hs : Dotted (Text.dropFeed s.toList)) : ch ∉ s.toList := by
    intro hmem
    rcases Text.mem_dropFeed_or hmem with hmem | ⟨hch, -⟩
    · rcases hs.of_mem hmem with hch | hch
      · rw [isNameChar_iff.mpr hch] at hname
        cases hname
      · exact hpoint hch
    · exact hfeed hch
  have hproduct := hc.product
  have hsegment := hc.segment
  rw [unfed, String.toList_ofList] at hproduct hsegment
  rw [rootAssembly, String.toList_append, String.toList_append, List.mem_append, List.mem_append]
  rintro ((hc | hc) | hc)
  · exact hpath hproduct hc
  · exact hpoint (List.mem_singleton.mp hc)
  · exact hpath hsegment hc

/-- The language of a usable configuration holds no points and no digits. -/
theorem Config.Usable.of_mem {c : Config} (h : c.Usable) {ch : Char}
    (hm : ch ∈ c.language.toList) : ch ≠ '.' ∧ ch.isDigit = false := by
  rcases h.word ch hm with hs | rfl
  · refine ⟨?_, ?_⟩
    · rintro rfl
      exact absurd hs (by decide)
    · by_cases hc : ch = '_'
      · rw [hc]
        decide
      · exact Text.isDigit_of_isAlpha (by simpa [Config.isNameStart, hc] using hs)
  · decide

theorem Generator.polls_recordProblems {ε : Type} (canceled : ε) (config : Config) :
    Work.Polls canceled (recordProblems config : Work ε Unit) 0 (.ok ()) := by
  unfold recordProblems
  induction config.problems with
  | nil => exact Work.polls_pure ()
  | cons p ps ih => exact ih.after_record _

/-- A configuration is accepted, in whatever session, exactly when it has no problems. -/
theorem Generator.ensureValid_eq_ok_iff {config : Config} {s : Session} :
    ((ensureValid config).runIn s).1 = .ok () ↔ config.problems = [] := by
  obtain ⟨es, hs⟩ := polls_recordProblems RunError.canceled config s
  rw [Session.pollFor_zero, if_pos rfl] at hs
  rw [ensureValid, Work.runIn_bind, hs]
  cases config.problems with
  | nil => simp [Work.runIn_pure]
  | cons p ps => simp [Work.runIn_throw]

namespace Chain

theorem toList_stem (config : Config) :
    (stem config).toList = config.rootAssembly.toList ++ '.' :: config.language.toList := by
  rw [stem, String.toList_append, String.toList_append, List.append_assoc]
  rfl

theorem tierDigits?_eq_some_iff {config : Config} {name : String} {digits : List Char} :
    tierDigits? config name = some digits ↔
      name.toList = (stem config).toList ++ digits ∧ digits ≠ [] ∧
        ∀ ch ∈ digits, ch.isDigit = true := by
  unfold tierDigits?
  dsimp only
  by_cases hp : (stem config).toList <+: name.toList
  · obtain ⟨rest, hrest⟩ := hp
    rw [← hrest, if_pos (List.isPrefixOf_iff_prefix.mpr (List.prefix_append _ _)), List.drop_left]
    simp only [List.append_cancel_left_eq]
    by_cases hd : (!rest.isEmpty && rest.all Char.isDigit) = true
    · rw [if_pos hd, Option.some.injEq]
      rw [Bool.and_eq_true, List.all_eq_true] at hd
      constructor
      · rintro rfl
        exact ⟨rfl, by simpa using hd.1, hd.2⟩
      · exact fun h => h.1
    · rw [if_neg hd]
      constructor
      · intro h
        cases h
      · rintro ⟨rfl, hne, hall⟩
        refine absurd ?_ hd
        rw [Bool.and_eq_true, List.all_eq_true]
        exact ⟨by simpa using hne, hall⟩
  · rw [if_neg fun h => hp (List.isPrefixOf_iff_prefix.mp h)]
    constructor
    · intro h
      cases h
    · rintro ⟨h, -⟩
      exact absurd ⟨digits, h.symm⟩ hp

/-- The names with a link: the stem and the digits of a tier that is not below the baseline. -/
theorem standing_eq_link_iff {config : Config} {name : String} {chain : Chain} :
    standing config name = .link chain ↔
      ∃ digits, name.toList = (stem config).toList ++ digits ∧ digits ≠ [] ∧
        (∀ ch ∈ digits, ch.isDigit = true) ∧ digits.length ≤ Text.digitLimit ∧
        config.baseline ≤ (Nat.ofDigitChars 10 digits 0 : Nat) ∧
        chain = ofTier config (Nat.ofDigitChars 10 digits 0 : Nat) name := by
  unfold standing
  cases ht : tierDigits? config name with
  | none =>
    constructor
    · intro h
      cases h
    · rintro ⟨digits, hname, hne, hall, -⟩
      rw [tierDigits?_eq_some_iff.mpr ⟨hname, hne, hall⟩] at ht
      cases ht
  | some digits =>
    obtain ⟨hname, hne, hall⟩ := tierDigits?_eq_some_iff.mp ht
    dsimp only
    constructor
    · intro h
      refine ⟨digits, hname, hne, hall, ?_⟩
      by_cases hl : Text.digitLimit < digits.length
      · rw [if_pos hl] at h
        cases h
      · rw [if_neg hl] at h
        by_cases hb : ((Nat.ofDigitChars 10 digits 0 : Nat) : Int) < config.baseline
        · rw [if_pos hb] at h
          cases h
        · rw [if_neg hb] at h
          exact ⟨by omega, by omega, (Standing.link.inj h).symm⟩
    · rintro ⟨digits', hname', -, -, hl, hb, rfl⟩
      obtain rfl : digits' = digits := List.append_cancel_left (hname'.symm.trans hname)
      rw [if_neg (by omega), if_neg (by omega)]

theorem toList_token (config : Config) (n : Nat) :
    (token config n).toList = config.language.toList ++ (toString n).toList := by
  rw [token, String.toList_append]
  rfl

theorem exists_digit_mem_token (config : Config) (n : Nat) :
    ∃ c ∈ (token config n).toList, c.isDigit = true := by
  have hdigits : (toString n).toList ≠ [] := by
    rw [Text.toList_toString]
    exact Nat.toDigits_ne_nil
  obtain ⟨c, hc⟩ := List.exists_mem_of_ne_nil _ hdigits
  refine ⟨c, ?_, ?_⟩
  · rw [toList_token]
    exact List.mem_append_right _ hc
  · rw [Text.toList_toString] at hc
    exact Nat.isDigit_of_mem_toDigits (by decide) (by decide) hc

theorem token_ne_token_succ (config : Config) (k : Nat) :
    (token config k).toList ≠ (token config (k + 1 : Nat)).toList := by
  intro h
  rw [toList_token, toList_token] at h
  have hk : k = k + 1 := Text.toString_inj (String.toList_inj.mp (List.append_cancel_left h))
  omega

theorem length_token_le (config : Config) (k : Nat) :
    (token config k).toList.length ≤ (token config (k + 1 : Nat)).toList.length := by
  rw [toList_token, toList_token, List.length_append, List.length_append]
  apply Nat.add_le_add_left
  exact Text.length_toString_le (Nat.le_succ k)

theorem ofTier_baseline {config : Config} {n : Nat} (h : config.baseline = n) (name : String) :
    ofTier config n name = ⟨n, "", config.rootAssembly, token config n, name⟩ := by
  simp only [ofTier, h, if_true]

theorem ofTier_succ {config : Config} {k : Nat} (h : config.baseline ≤ k) (name : String) :
    ofTier config (k + 1 : Nat) name =
      ⟨(k + 1 : Nat), token config k, config.rootAssembly ++ "." ++ token config k,
        token config (k + 1 : Nat), name⟩ := by
  have hne : ¬ ((k + 1 : Nat) : Int) = config.baseline := by omega
  have hk : ((k + 1 : Nat) : Int) - 1 = (k : Nat) := by omega
  simp only [ofTier, if_neg hne, hk]

/-- The name of the assembly of a tier. -/
def assemblyOf (config : Config) (n : Nat) : String := stem config ++ toString n

theorem assemblyOf_eq (config : Config) (n : Nat) :
    assemblyOf config n = config.rootAssembly ++ "." ++ token config n := by
  rw [assemblyOf, stem, token, String.append_assoc]
  rfl

theorem previousAssembly_succ {config : Config} {k : Nat} (h : config.baseline ≤ k)
    (name : String) : (ofTier config (k + 1 : Nat) name).previousAssembly = assemblyOf config k := by
  rw [ofTier_succ h]
  exact (assemblyOf_eq config k).symm

/-- The name of a tier's assembly has the tier's link, if the tier is in the chain and its number
can be read. -/
theorem standing_assemblyOf_iff {config : Config} {n : Nat} {chain : Chain} :
    standing config (assemblyOf config n) = .link chain ↔
      (toString n).toList.length ≤ Text.digitLimit ∧ config.baseline ≤ n ∧
        chain = ofTier config n (assemblyOf config n) := by
  have hread : Nat.ofDigitChars 10 (toString n).toList 0 = n := by
    rw [Text.toList_toString]
    exact Nat.ofDigitChars_ten_toDigits
  have hname : (assemblyOf config n).toList = (stem config).toList ++ (toString n).toList := by
    rw [assemblyOf, String.toList_append]
  rw [standing_eq_link_iff]
  constructor
  · rintro ⟨digits, hdigits, -, -, hl, hb, hchain⟩
    obtain rfl : (toString n).toList = digits := List.append_cancel_left (hname.symm.trans hdigits)
    rw [hread] at hb hchain
    exact ⟨hl, hb, hchain⟩
  · rintro ⟨hl, hb, hchain⟩
    refine ⟨(toString n).toList, hname, ?_, ?_, hl, by rwa [hread], by rwa [hread]⟩
    · rw [Text.toList_toString]
      exact Nat.toDigits_ne_nil
    · intro ch hch
      rw [Text.toList_toString] at hch
      exact Nat.isDigit_of_mem_toDigits (by decide) (by decide) hch

end Chain

namespace Config.Usable

variable {config : Config}

theorem token_ne_nil (h : config.Usable) (n : Nat) : (Chain.token config n).toList ≠ [] := by
  rw [Chain.toList_token]
  exact List.append_ne_nil_of_left_ne_nil h.named _

theorem point_notMem_token (h : config.Usable) (n : Nat) :
    '.' ∉ (Chain.token config n).toList := by
  rw [Chain.toList_token, List.mem_append, not_or]
  exact ⟨fun hm => (h.of_mem hm).1 rfl, Text.notMem_toString (by decide) n⟩

/-- A token is made of name characters and, behind the language, perhaps a line feed. -/
theorem notMem_token (h : config.Usable) {c : Char} (hname : Config.isNameStart c = false)
    (hfeed : c ≠ '\n') (hdigit : c.isDigit = false) (n : Nat) :
    c ∉ (Chain.token config n).toList := by
  rw [Chain.toList_token, List.mem_append, not_or]
  refine ⟨?_, Text.notMem_toString hdigit n⟩
  intro hc
  rcases h.word c hc with hs | hs
  · rw [hname] at hs
    cases hs
  · exact hfeed hs

/-- A link of a usable configuration follows the root assembly at the baseline, and from then on the
tier whose number is one less. -/
theorem link_cases (h : config.Usable) {name : String} {chain : Chain}
    (hl : Chain.standing config name = .link chain) :
    ∃ n : Nat, chain = Chain.ofTier config n name ∧ (Chain.stem config).toList <+: name.toList ∧
      (config.baseline = n ∧ chain.previousToken = "" ∧
          chain.previousAssembly = config.rootAssembly ∨
        ∃ k : Nat, n = k + 1 ∧ config.baseline ≤ k ∧
          chain.previousToken = Chain.token config k ∧
          chain.previousAssembly = config.rootAssembly ++ "." ++ Chain.token config k) := by
  obtain ⟨digits, hname, -, -, -, hb, rfl⟩ := Chain.standing_eq_link_iff.mp hl
  refine ⟨_, rfl, ⟨digits, hname.symm⟩, ?_⟩
  -- the baseline is positive, so a tier above it has a tier below
  have hpos := h.positive
  generalize Nat.ofDigitChars 10 digits 0 = n at hb
  by_cases he : (n : Int) = config.baseline
  · refine Or.inl ⟨he.symm, ?_, ?_⟩
    · rw [Chain.ofTier_baseline he.symm]
    · rw [Chain.ofTier_baseline he.symm]
  · obtain ⟨k, rfl⟩ : ∃ k, n = k + 1 := ⟨n - 1, by omega⟩
    have hk : config.baseline ≤ k := by omega
    refine Or.inr ⟨k, rfl, hk, ?_, ?_⟩
    · rw [Chain.ofTier_succ hk]
    · rw [Chain.ofTier_succ hk]

end Config.Usable

end TierHost
