import TierHost.Proofs.Tier.Valid

/-!
The links of the chain of tiers. A name has a link exactly when it is that of a tier from the
baseline on; from each link above the baseline the name of the tier below leads to a link of its own,
and this descent ends at the baseline, over the root test assembly.
-/

namespace TierHost

namespace Generator

/-- What a name resolves to when the host gives no token. -/
def resolved (config : Config) (name : String) : Except RunError (Option Chain) :=
  ((resolve config (some name)).runIn (.start none)).1

/-- The name is the root test assembly's name, a point, the language, and decimal digits. -/
structure Numbered (config : Config) (name : String) (digits : List Char) : Prop where
  name_eq : name = config.rootAssembly ++ "." ++ config.language ++ String.ofList digits
  nonempty : digits ≠ []
  decimal : ∀ ch ∈ digits, ch.isDigit = true

/-- The previous assembly of the one link resolves to the other. -/
def Below (config : Config) (below chain : Chain) : Prop :=
  resolved config chain.previousAssembly = .ok (some below)

/-- Going down from link to link so many times ends at the last one. -/
inductive Descent (config : Config) : Nat → Chain → Chain → Prop
  | here (chain : Chain) : Descent config 0 chain chain
  | down {n : Nat} {chain below last : Chain} (step : Below config below chain)
      (rest : Descent config n below last) : Descent config (n + 1) chain last

variable {config : Config} {name : String} {chain : Chain} {digits : List Char}

theorem resolved_eq (config : Config) (name : String) :
    resolved config name = linkOf config name :=
  (polls_resolve config (some name)).runIn_quiet (Session.quiet_of_token rfl)

theorem resolved_eq_link_iff :
    resolved config name = .ok (some chain) ↔ Chain.standing config name = .link chain := by
  rw [resolved_eq, linkOf_eq_link_iff]

theorem numbered_iff :
    Numbered config name digits ↔ Chain.tierDigits? config name = some digits := by
  have hname : name = config.rootAssembly ++ "." ++ config.language ++ String.ofList digits ↔
      name.toList = (Chain.stem config).toList ++ digits := by
    rw [← String.toList_inj, String.toList_append, String.toList_ofList]
    rfl
  rw [Chain.tierDigits?_eq_some_iff, ← hname]
  constructor
  · rintro ⟨hn, hne, hd⟩
    exact ⟨hn, hne, hd⟩
  · rintro ⟨hn, hne, hd⟩
    exact ⟨hn, hne, hd⟩

/-- The names that resolve to a link, and the link that they resolve to. -/
theorem resolved_eq_chain_iff :
    resolved config name = .ok (some chain) ↔
      ∃ digits, Numbered config name digits ∧ digits.length ≤ 4300 ∧
        config.baseline ≤ (Nat.ofDigitChars 10 digits 0 : Nat) ∧
        chain = Chain.ofTier config (Nat.ofDigitChars 10 digits 0 : Nat) name := by
  rw [resolved_eq_link_iff, Chain.standing_eq_link_iff]
  constructor
  · rintro ⟨digits, hname, hne, hd, hrest⟩
    exact ⟨digits, numbered_iff.mpr (Chain.tierDigits?_eq_some_iff.mpr ⟨hname, hne, hd⟩), hrest⟩
  · rintro ⟨digits, hn, hrest⟩
    obtain ⟨hname, hne, hd⟩ := Chain.tierDigits?_eq_some_iff.mp (numbered_iff.mp hn)
    exact ⟨digits, hname, hne, hd, hrest⟩

/-- The names that cannot be resolved: their number has too many digits. -/
theorem resolved_eq_error_iff {e : RunError} :
    resolved config name = .error e ↔
      ∃ digits, Numbered config name digits ∧ 4300 < digits.length ∧
        e = .tierTooLong digits.length := by
  rw [resolved_eq, linkOf, Chain.standing]
  simp only [numbered_iff]
  cases Chain.tierDigits? config name with
  | none => simp
  | some digits =>
    dsimp only
    by_cases hl : Text.digitLimit < digits.length
    · have hl' : 4300 < digits.length := hl
      simp [if_pos hl, hl', eq_comm]
    · have hl' : ¬ 4300 < digits.length := hl
      rw [if_neg hl]
      by_cases hb : ((Nat.ofDigitChars 10 digits 0 : Nat) : Int) < config.baseline
      · simp [if_pos hb, hl']
      · simp [if_neg hb, hl']

/-- A link follows the root assembly at the baseline, and above it the link one tier lower, whose
token and name it knows. -/
theorem resolved_cases (hc : config.Usable) (h : resolved config name = .ok (some chain)) :
    chain.currentAssembly = name ∧
      (chain.tier = config.baseline ∧ chain.previousToken = "" ∧
          chain.previousAssembly = config.rootAssembly ∨
        config.baseline < chain.tier ∧ chain.previousToken ≠ "" ∧
          ∃ below, Below config below chain ∧ below.tier = chain.tier - 1 ∧
            below.currentToken = chain.previousToken ∧
            below.currentAssembly = chain.previousAssembly) := by
  obtain ⟨digits, hn, hlength, hb, rfl⟩ := resolved_eq_chain_iff.mp h
  have hwriting := Text.length_toString_ofDigitChars hn.nonempty hn.decimal
  have hpositive := hc.positive
  refine ⟨rfl, ?_⟩
  generalize Nat.ofDigitChars 10 digits 0 = n at hb hwriting
  by_cases he : config.baseline = n
  · rw [Chain.ofTier_baseline he]
    exact Or.inl ⟨he.symm, rfl, rfl⟩
  · obtain ⟨k, rfl⟩ : ∃ k, n = k + 1 := ⟨n - 1, by omega⟩
    have hk : config.baseline ≤ k := by omega
    have hread : (toString k).toList.length ≤ Text.digitLimit :=
      Nat.le_trans (Text.length_toString_le (Nat.le_succ k)) (Nat.le_trans hwriting hlength)
    have hbelow : resolved config (Chain.assemblyOf config k) =
        .ok (some (Chain.ofTier config k (Chain.assemblyOf config k))) :=
      resolved_eq_link_iff.mpr (Chain.standing_assemblyOf_iff.mpr ⟨hread, hk, rfl⟩)
    have hprevious := Chain.previousAssembly_succ hk name
    have htoken : (Chain.ofTier config (k + 1 : Nat) name).previousToken = Chain.token config k := by
      rw [Chain.ofTier_succ hk]
    refine Or.inr ⟨by rw [Chain.ofTier_succ hk]; dsimp only; omega, ?_,
      Chain.ofTier config k (Chain.assemblyOf config k), ?_, ?_, ?_, ?_⟩
    · rw [htoken]
      intro hempty
      exact hc.token_ne_nil k (by rw [hempty]; rfl)
    · rw [Below, hprevious, hbelow]
    · show (k : Int) = (k + 1 : Nat) - 1
      omega
    · rw [htoken]
      rfl
    · exact hprevious.symm

/-- The root test assembly is not one of the tiers: its name is shorter than all of theirs. -/
theorem resolved_root (config : Config) : resolved config config.rootAssembly = .ok none := by
  have hnone : Chain.tierDigits? config config.rootAssembly = none := by
    cases ht : Chain.tierDigits? config config.rootAssembly with
    | none => rfl
    | some digits =>
      obtain ⟨hname, -, -⟩ := Chain.tierDigits?_eq_some_iff.mp ht
      have hlength := congrArg List.length hname
      rw [Chain.toList_stem, List.length_append, List.length_append, List.length_cons] at hlength
      omega
  rw [resolved_eq, linkOf, Chain.standing, hnone]

/-- Only the link of the baseline has no token before it. -/
theorem previousToken_eq_empty_iff (hc : config.Usable)
    (h : resolved config name = .ok (some chain)) :
    chain.previousToken = "" ↔ chain.tier = config.baseline := by
  rcases (resolved_cases hc h).2 with ⟨htier, htoken, -⟩ | ⟨htier, htoken, -⟩
  · exact ⟨fun _ => htier, fun _ => htoken⟩
  · exact ⟨fun hempty => absurd hempty htoken, fun he => by omega⟩

/-- One step down: it starts above the baseline and ends one tier lower. -/
theorem Below.tier_eq (hc : config.Usable) (h : resolved config name = .ok (some chain))
    {below : Chain} (hb : Below config below chain) :
    below.tier = chain.tier - 1 ∧ config.baseline < chain.tier := by
  rcases (resolved_cases hc h).2 with ⟨-, -, hroot⟩ | ⟨hlt, -, below', hb', htier, -⟩
  · rw [Below, hroot, resolved_root] at hb
    cases hb
  · rw [Below] at hb hb'
    rw [hb'] at hb
    cases hb
    exact ⟨htier, hlt⟩

theorem Descent.tier_eq (hc : config.Usable) {n : Nat} {last : Chain}
    (h : resolved config name = .ok (some chain)) (hd : Descent config n chain last) :
    last.tier = chain.tier - n ∧ ∃ name', resolved config name' = .ok (some last) := by
  -- the name varies with the link, since each one is resolved from what the one before names
  induction hd generalizing name with
  | here chain => exact ⟨by omega, name, h⟩
  | down step _ ih =>
    obtain ⟨htier, -⟩ := step.tier_eq hc h
    obtain ⟨hlast, hname⟩ := ih step
    exact ⟨by omega, hname⟩

/-- From a link so many tiers above the baseline, as many steps lead to the baseline. -/
theorem exists_descent (hc : config.Usable) {n : Nat} (hn : chain.tier = config.baseline + n)
    (h : resolved config name = .ok (some chain)) :
    ∃ last, Descent config n chain last ∧ last.tier = config.baseline ∧ last.previousToken = "" ∧
      last.previousAssembly = config.rootAssembly := by
  induction n generalizing name chain with
  | zero =>
    rcases (resolved_cases hc h).2 with ⟨htier, htoken, hroot⟩ | ⟨hlt, -⟩
    · exact ⟨chain, .here chain, htier, htoken, hroot⟩
    · omega
  | succ n ih =>
    rcases (resolved_cases hc h).2 with ⟨htier, -⟩ | ⟨-, -, below, hb, htier, -⟩
    · omega
    · obtain ⟨last, hd, hlast⟩ := ih (by omega) hb
      exact ⟨last, .down hb hd, hlast⟩

theorem acc_below (hc : config.Usable) {n : Nat} (hn : chain.tier < config.baseline + n)
    (h : resolved config name = .ok (some chain)) : Acc (Below config) chain := by
  induction n generalizing name chain with
  | zero =>
    refine ⟨chain, ?_⟩
    intro below hb
    have hlt := (hb.tier_eq hc h).2
    omega
  | succ n ih =>
    refine ⟨chain, ?_⟩
    intro below hb
    obtain ⟨htier, -⟩ := hb.tier_eq hc h
    exact ih (by omega) hb

/-- No chain of links goes down for ever, whatever it starts from. -/
theorem wellFounded_below (hc : config.Usable) : WellFounded (Below config) := by
  refine ⟨fun chain => ⟨chain, ?_⟩⟩
  intro below hb
  exact acc_below hc (n := (below.tier - config.baseline).toNat + 1) (by omega) hb

/-- The chain of tiers. A name has a link exactly when it is that of a tier from the baseline on, in
digits of which there are not too many. A link above the baseline knows the name and the token of the
link one tier lower, so that going down ends at the baseline after as many steps as there are tiers
above it. That link alone knows no token, and the assembly below it is the root, which has no link. -/
theorem links_descend {config : Config} {s₀ : Session}
    (hvalid : ((ensureValid config).runIn s₀).1 = .ok ()) :
    (∀ name, (∃ chain, resolved config name = .ok (some chain)) ↔
      ∃ digits, Numbered config name digits ∧ digits.length ≤ 4300 ∧
        config.baseline ≤ (Nat.ofDigitChars 10 digits 0 : Nat)) ∧
    (∀ name e, resolved config name = .error e ↔
      ∃ digits, Numbered config name digits ∧ 4300 < digits.length ∧
        e = .tierTooLong digits.length) ∧
    (∀ name chain, resolved config name = .ok (some chain) →
      (∀ digits, Numbered config name digits →
        chain.tier = (Nat.ofDigitChars 10 digits 0 : Nat)) ∧
      chain.currentAssembly = name ∧
      (config.baseline < chain.tier → ∃ below, Below config below chain ∧
        below.tier = chain.tier - 1 ∧ below.currentToken = chain.previousToken ∧
        below.currentAssembly = chain.previousAssembly) ∧
      (∃ last, Descent config (chain.tier - config.baseline).toNat chain last ∧
        last.tier = config.baseline ∧ last.previousToken = "" ∧
        last.previousAssembly = config.rootAssembly) ∧
      (∀ n last, Descent config n chain last → last.tier = chain.tier - n ∧
        (last.previousToken = "" ↔ last.tier = config.baseline))) ∧
    resolved config config.rootAssembly = .ok none ∧ WellFounded (Below config) := by
  have hc : config.Usable := Config.usable_of_problems (ensureValid_eq_ok_iff.mp hvalid)
  refine ⟨?_, fun name e => resolved_eq_error_iff, ?_, resolved_root config, wellFounded_below hc⟩
  · intro name
    constructor
    · rintro ⟨chain, h⟩
      obtain ⟨digits, hn, hlength, hb, -⟩ := resolved_eq_chain_iff.mp h
      exact ⟨digits, hn, hlength, hb⟩
    · rintro ⟨digits, hn, hlength, hb⟩
      exact ⟨_, resolved_eq_chain_iff.mpr ⟨digits, hn, hlength, hb, rfl⟩⟩
  · intro name chain h
    obtain ⟨hname, hcases⟩ := resolved_cases hc h
    obtain ⟨digits, hn, -, hb, hchain⟩ := resolved_eq_chain_iff.mp h
    have htier : chain.tier = (Nat.ofDigitChars 10 digits 0 : Nat) := by rw [hchain]; rfl
    refine ⟨?_, hname, ?_, ?_, ?_⟩
    · intro digits' hn'
      have he := numbered_iff.mp hn'
      rw [numbered_iff.mp hn] at he
      rw [htier, Option.some.inj he]
    · intro hlt
      rcases hcases with ⟨he, -⟩ | ⟨-, -, hbelow⟩
      · omega
      · exact hbelow
    · exact exists_descent hc (by omega) h
    · intro n last hd
      obtain ⟨hlast, name', hname'⟩ := hd.tier_eq hc h
      exact ⟨hlast, previousToken_eq_empty_iff hc hname'⟩

/-- A tier number with a zero in front has the link of its value, which leads to the baseline. -/
theorem links_descend_zeros :
    ((ensureValid .default).runIn (.start none)).1 = .ok () ∧
      ∃ chain, resolved .default "StyleCop.Analyzers.Test.CSharp010" = .ok (some chain) ∧
        chain.tier = 10 ∧ ∃ last, Descent .default 3 chain last ∧ last.tier = 7 ∧
          last.previousToken = "" ∧ last.previousAssembly = "StyleCop.Analyzers.Test" := by
  have hvalid : ((ensureValid .default).runIn (.start none)).1 = .ok () :=
    ensureValid_eq_ok_iff.mpr (by decide)
  obtain ⟨hlinks, -, hdescent, -, -⟩ := links_descend hvalid
  have hn : Numbered .default "StyleCop.Analyzers.Test.CSharp010" ['0', '1', '0'] :=
    ⟨by decide, by decide, by simp⟩
  obtain ⟨chain, h⟩ := (hlinks _).mpr ⟨_, hn, by decide, by decide⟩
  obtain ⟨htier, -, -, ⟨last, hd, hlast⟩, -⟩ := hdescent _ chain h
  have hten : chain.tier = 10 := (htier _ hn).trans (by decide)
  rw [hten] at hd
  exact ⟨hvalid, chain, h, hten, last, hd, hlast⟩

end Generator

end TierHost
