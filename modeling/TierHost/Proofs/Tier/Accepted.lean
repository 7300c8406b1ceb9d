import TierHost.Proofs.Text.Numeral
import TierHost.Proofs.Tier.Emitted

/-!
What an accepted configuration brings into names. The checks accept the grammar of configurations, and
beside it names with a line feed at the end; that line feed is the only blank that a configuration can
bring into assembly names, tokens, and the lines of a source unit.
-/

namespace TierHost

def Chain.names (c : Chain) : List String :=
  [c.previousToken, c.previousAssembly, c.currentToken, c.currentAssembly]

def Spec.names (s : Spec) : List String := [s.space, s.type, s.baseSpace, s.baseType]

namespace Config

open Text

/-- No character of a text is a blank but line feeds, and these only if one of the configuration's
names ends in one. -/
def FeedsOnly (config : Config) (s : List Char) : Prop :=
  ∀ c ∈ s, isBlank c = true → c = '\n' ∧ config.Fed

theorem NameChar.not_blank {c : Char} (h : NameChar c) : isBlank c = false := by
  have hcode : 48 ≤ c.toNat ∧ c.toNat ≤ 122 := by
    rcases h with (⟨hfirst, hlast⟩ | ⟨hfirst, hlast⟩ | rfl) | ⟨hfirst, hlast⟩
    · have hA : 65 ≤ c.toNat := hfirst
      have hZ : c.toNat ≤ 90 := hlast
      omega
    · have ha : 97 ≤ c.toNat := hfirst
      have hz : c.toNat ≤ 122 := hlast
      omega
    · decide
    · have hzero : 48 ≤ c.toNat := hfirst
      have hnine : c.toNat ≤ 57 := hlast
      omega
  exact not_isBlank_of_printable (by omega) (by omega)

theorem nameChar_of_isDigit {c : Char} (h : c.isDigit = true) : NameChar c :=
  isNameChar_iff.mp (by rw [isNameChar, h, Bool.or_true])

variable {config : Config}

theorem FeedsOnly.append {s t : List Char} (hs : config.FeedsOnly s) (ht : config.FeedsOnly t) :
    config.FeedsOnly (s ++ t) := by
  intro c hc
  rcases List.mem_append.mp hc with hc | hc
  · exact hs c hc
  · exact ht c hc

theorem feedsOnly_of_nameChar {s : List Char} (h : ∀ c ∈ s, NameChar c ∨ c = '.') :
    config.FeedsOnly s := by
  intro c hc hblank
  rcases h c hc with hname | rfl
  · rw [hname.not_blank] at hblank
    cases hblank
  · exact absurd hblank (by decide)

/-- A checked name is in the grammar up to its end, and there a line feed may stand. -/
theorem feedsOnly_name (hp : config.problems = []) {s : String}
    (hs : s ∈ [config.product, config.segment, config.language]) :
    config.FeedsOnly s.toList := by
  have hwell := problems_eq_nil_iff.mp hp
  have hchecked : ∀ c ∈ dropFeed s.toList, NameChar c ∨ c = '.' := by
    have hproduct := hwell.product
    have hsegment := hwell.segment
    have hlanguage := hwell.language
    rw [unfed, String.toList_ofList] at hproduct hsegment hlanguage
    simp only [List.mem_cons, List.not_mem_nil, or_false] at hs
    intro c hc
    rcases hs with rfl | rfl | rfl
    · exact hproduct.of_mem hc
    · exact hsegment.of_mem hc
    · exact Or.inl (Or.inl (hlanguage.2 c hc))
  intro c hc hblank
  rcases mem_dropFeed_or hc with hc | ⟨hfeed, hlast⟩
  · exact feedsOnly_of_nameChar hchecked c hc hblank
  · exact ⟨hfeed, s, hs, hlast⟩

theorem feedsOnly_point : config.FeedsOnly ".".toList := by
  apply feedsOnly_of_nameChar
  intro c hc
  exact Or.inr (List.mem_singleton.mp hc)

theorem feedsOnly_rootAssembly (hp : config.problems = []) :
    config.FeedsOnly config.rootAssembly.toList := by
  rw [rootAssembly, String.toList_append, String.toList_append]
  apply FeedsOnly.append
  · exact (feedsOnly_name hp (by simp)).append feedsOnly_point
  · exact feedsOnly_name hp (by simp)

theorem feedsOnly_token (hp : config.problems = []) (n : Nat) :
    config.FeedsOnly (Chain.token config n).toList := by
  have hdigits : config.FeedsOnly (toString n).toList := by
    apply feedsOnly_of_nameChar
    intro c hc
    rw [toList_toString] at hc
    exact Or.inl (nameChar_of_isDigit (Nat.isDigit_of_mem_toDigits (by decide) (by decide) hc))
  rw [Chain.toList_token]
  exact (feedsOnly_name hp (by simp)).append hdigits

/-- The texts of a link are put together from the configuration's names, points and digits. -/
theorem feedsOnly_of_link (hp : config.problems = []) {name : String} {chain : Chain}
    (hl : Chain.standing config name = .link chain) {t : String} (ht : t ∈ chain.names) :
    config.FeedsOnly t.toList := by
  have hroot := feedsOnly_rootAssembly hp
  have hname : config.FeedsOnly name.toList := by
    obtain ⟨digits, hdigits, -, hall, -⟩ := Chain.standing_eq_link_iff.mp hl
    rw [hdigits, Chain.stem, String.toList_append, String.toList_append]
    apply FeedsOnly.append
    · exact (hroot.append feedsOnly_point).append (feedsOnly_name hp (by simp))
    · exact feedsOnly_of_nameChar fun c hc => Or.inl (nameChar_of_isDigit (hall c hc))
  obtain ⟨n, rfl, -, htier⟩ := (usable_of_problems hp).link_cases hl
  simp only [Chain.names, List.mem_cons, List.not_mem_nil, or_false] at ht
  rcases ht with rfl | rfl | rfl | rfl
  · rcases htier with ⟨-, htoken, -⟩ | ⟨k, -, -, htoken, -⟩
    · rw [htoken]
      exact feedsOnly_of_nameChar (by simp)
    · rw [htoken]
      exact feedsOnly_token hp k
  · rcases htier with ⟨-, -, hassembly⟩ | ⟨k, -, -, -, hassembly⟩
    · rw [hassembly]
      exact hroot
    · rw [hassembly, String.toList_append, String.toList_append]
      exact (hroot.append feedsOnly_point).append (feedsOnly_token hp k)
  · exact feedsOnly_token hp n
  · exact hname

/-- A blank in the names of an emitted class that the candidate does not have comes from the link. -/
theorem blank_of_spec (hp : config.problems = []) {name : String} {chain : Chain}
    (hl : Chain.standing config name = .link chain) {candidate : String} {sp : Spec}
    (hspec : Rename.spec config chain candidate = .ok sp) {t : String} (ht : t ∈ sp.names) {c : Char}
    (hc : c ∈ t.toList) (hblank : isBlank c = true) :
    c ∈ candidate.toList ∨ c = '\n' ∧ config.Fed := by
  have hnames : c ∈ sp.space.toList ∨ c ∈ sp.type.toList ∨ c ∈ sp.baseSpace.toList ∨
      c ∈ sp.baseType.toList := by
    simp only [Spec.names, List.mem_cons, List.not_mem_nil, or_false] at ht
    rcases ht with rfl | rfl | rfl | rfl
    · exact Or.inl hc
    · exact Or.inr (Or.inl hc)
    · exact Or.inr (Or.inr (Or.inl hc))
    · exact Or.inr (Or.inr (Or.inr hc))
  rcases Rename.mem_of_spec (usable_of_problems hp) hl hspec hnames with hm | hm | hm
  · exact Or.inl hm
  · exact Or.inr (feedsOnly_of_link hp hl (by simp [Chain.names]) c hm hblank)
  · exact Or.inr (feedsOnly_of_link hp hl (by simp [Chain.names]) c hm hblank)

/-- A configuration is accepted if it is in the grammar once a line feed at the end of its names is
left out. Without such line feeds that is the grammar, and then the configuration brings no blank into
the names of a link, and none into the lines of a source unit that the candidate does not have. -/
theorem accepted_iff_wellformed (config : Config) :
    (∀ s : Session, ((Generator.ensureValid config).runIn s).1 = .ok () ↔ config.problems = []) ∧
    (config.problems = [] ↔ config.unfed.Wellformed) ∧
    (config.Wellformed ↔ config.problems = [] ∧ ¬ config.Fed) ∧
    (config.problems = [] →
      config.FeedsOnly config.rootAssembly.toList ∧
      ∀ name chain, Chain.standing config name = .link chain →
        (∀ t ∈ chain.names, config.FeedsOnly t.toList) ∧
        ∀ candidate sp, Rename.spec config chain candidate = .ok sp →
          (Source.ofSpec config sp).text = String.join (sp.lines.map (· ++ "\n")) ∧
          ∀ t ∈ sp.names, ∀ c ∈ t.toList, isBlank c = true →
            c ∈ candidate.toList ∨ c = '\n' ∧ config.Fed) := by
  have hgrammar : config.problems = [] ↔ config.unfed.Wellformed := problems_eq_nil_iff
  refine ⟨fun s => Generator.ensureValid_eq_ok_iff, hgrammar, ?_, ?_⟩
  · constructor
    · intro h
      refine ⟨?_, h.not_fed⟩
      rw [hgrammar, unfed_eq_self h.not_fed]
      exact h
    · rintro ⟨hp, hfed⟩
      rwa [hgrammar, unfed_eq_self hfed] at hp
  · intro hp
    refine ⟨feedsOnly_rootAssembly hp, ?_⟩
    intro name chain hl
    refine ⟨fun t ht => feedsOnly_of_link hp hl ht, ?_⟩
    intro candidate sp hspec
    refine ⟨sp.render_eq_lines, ?_⟩
    intro t ht c hc hblank
    exact blank_of_spec hp hl hspec ht hc hblank

/-- The configuration that a host starts with, at its first tier. -/
theorem accepted_iff_wellformed_default :
    Config.default.Wellformed ∧ ∃ chain sp,
      Chain.standing .default "StyleCop.Analyzers.Test.CSharp7" = .link chain ∧
      Rename.spec .default chain "global::StyleCop.Analyzers.Test.FooUnitTests" = .ok sp ∧
      (∀ t ∈ chain.names, ∀ c ∈ t.toList, isBlank c = false) ∧
      ∀ t ∈ sp.names, ∀ c ∈ t.toList, isBlank c = false := by
  obtain ⟨-, -, hwell, hblank⟩ := accepted_iff_wellformed .default
  have hp : Config.default.problems = [] := by decide
  have hfed : ¬ Config.default.Fed := by
    rw [Fed]
    decide
  let name := "StyleCop.Analyzers.Test.CSharp7"
  let candidate := "global::StyleCop.Analyzers.Test.FooUnitTests"
  have hl : Chain.standing .default name = .link (Chain.ofTier .default 7 name) := by decide
  have hpoint : '.' ∈ candidate.toList := by decide
  obtain ⟨sp, hspec⟩ := Rename.exists_spec (usable_of_problems hp) hl hpoint
  obtain ⟨hnames, hsource⟩ := (hblank hp).2 name _ hl
  refine ⟨hwell.mpr ⟨hp, hfed⟩, _, sp, hl, hspec, ?_, ?_⟩
  · intro t ht c hc
    exact Bool.eq_false_iff.mpr fun h => hfed (hnames t ht c hc h).2
  · intro t ht c hc
    have hcandidate : candidate.toList.any isBlank = false := by decide
    apply Bool.eq_false_iff.mpr
    intro hblank
    rcases (hsource candidate sp hspec).2 t ht c hc hblank with hm | hm
    · exact List.any_eq_false.mp hcandidate c hm hblank
    · exact hfed hm.2

/-- A product name with a line feed at its end is accepted. -/
theorem not_always_wellformed : ¬ ∀ config : Config, config.problems = [] ↔ config.Wellformed := by
  intro h
  let config : Config := { Config.default with product := "StyleCop.Analyzers\n" }
  have hp : config.problems = [] := by decide
  have hfed : config.Fed := ⟨config.product, List.mem_cons_self, by decide⟩
  exact ((h config).mp hp).not_fed hfed

end Config

end TierHost
