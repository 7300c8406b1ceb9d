import TierHost.Proofs.Text.Front
import TierHost.Proofs.Tier.Climb
import TierHost.Proofs.Tier.Lift

/-!
Which assembly the lifted class lands in. Lifting knows nothing of assemblies: a name from the
previous assembly comes to start with the current one only if the tokens and the suffix happen to
stand clear of the assembly's name.
-/

namespace TierHost

/-- The namespace is the assembly's own one, or it lies in that. -/
def Within (assembly space : String) : Prop :=
  space = assembly ∨ ∃ rest, space = assembly ++ "." ++ rest

variable {assembly space type : String}

/-- A class is in an assembly if its qualified name starts with the assembly's and a point. -/
theorem within_iff (ht : '.' ∉ type.toList) :
    Within assembly space ↔ assembly.toList ++ ['.'] <+: (space ++ "." ++ type).toList := by
  rw [toList_qualified, Text.front_append_cons_iff ht]
  constructor
  · rintro (rfl | ⟨rest, rfl⟩)
    · exact List.prefix_rfl
    · rw [toList_qualified, List.append_assoc]
      exact Text.front_self _ _ _
  · intro h
    rcases Text.front_append_cases h with ⟨rest, hrest⟩ | ⟨t, ht, hpoint⟩
    · refine Or.inr ⟨String.ofList rest, String.toList_inj.mp ?_⟩
      rw [toList_qualified, String.toList_ofList, ← hrest, List.append_assoc,
        List.singleton_append]
    · have hlength := hpoint.length_le
      rw [List.length_append] at hlength
      obtain rfl : t = [] := List.length_eq_zero_iff.mp (by simpa using hlength)
      rw [List.append_nil] at ht
      exact Or.inl (String.toList_inj.mp ht.symm)

theorem Within.exists_tail (h : Within assembly space) (type : String) :
    ∃ tail, (space ++ "." ++ type).toList = assembly.toList ++ '.' :: tail := by
  rcases h with rfl | ⟨rest, rfl⟩
  · exact ⟨type.toList, toList_qualified _ _⟩
  · refine ⟨rest.toList ++ '.' :: type.toList, ?_⟩
    rw [toList_qualified, toList_qualified, List.append_assoc, List.cons_append]

namespace Rename

/-- No place of the suffix begins in the global mark, in the assembly's name or in the point behind
it, once the assembly's name has been put in. -/
def SuffixBehind (config : Config) (chain : Chain) (candidate : String) : Prop :=
  ∀ u v, Text.replaceFirst chain.previousAssembly.toList chain.currentAssembly.toList
      candidate.toList = u ++ config.suffix.toList ++ v →
    (globalMark ++ chain.currentAssembly ++ ".").toList.length ≤ u.length

variable {config : Config} {chain : Chain} {name simple : String} {digits : List Char}

/-- Splitting a lifted name puts it in the assembly if the name does so behind the global mark. A
name that has lost the mark is in no assembly, since a colon is left before its first point. -/
theorem within_split_iff {lifted : String} (hs : split globalMark lifted = .ok (space, type))
    (hcolon : ':' ∉ assembly.toList) (hmarked : ∀ x, x ++ ['.'] <+: lifted.toList → ':' ∈ x) :
    Within assembly space ↔
      (globalMark.toList ++ assembly.toList) ++ ['.'] <+: lifted.toList := by
  have hmark : '.' ∉ globalMark.toList := by decide
  by_cases hstart : globalMark.toList <+: lifted.toList
  · obtain ⟨tail, htail⟩ := hstart
    obtain rfl : lifted = globalMark ++ String.ofList tail := by
      refine String.toList_inj.mp ?_
      rw [String.toList_append, String.toList_ofList, htail]
    obtain ⟨hrest, htype⟩ := (split_marked_iff hmark).mp hs
    rw [within_iff htype, hrest, toList_marked, List.append_assoc, List.prefix_append_right_inj]
  · have hunmarked : lifted = space ++ "." ++ type := by
      rcases (split_eq_ok hs).2 with h | h
      · refine absurd ?_ hstart
        rw [h, String.toList_append]
        exact List.prefix_append _ _
      · exact h
    have htype : '.' ∉ type.toList := by
      rw [(split_eq_ok hs).1]
      exact Text.point_notMem_simpleName _
    constructor
    · intro h
      rw [within_iff htype, ← hunmarked] at h
      exact absurd (hmarked _ h) hcolon
    · intro h
      rw [List.append_assoc] at h
      exact absurd ((List.prefix_append _ _).trans h) hstart

/-- In a path of the root, a token and more each step is replaced for itself, since tokens have no
points. -/
theorem replaceEach_path (hc : config.Usable) (n : Nat) (by_ root tail : List Char) :
    Text.replaceEach (Chain.token config n).toList by_
        (root ++ '.' :: ((Chain.token config n).toList ++ '.' :: tail)) =
      (Text.replaceEach (Chain.token config n).toList by_ root ++ '.' :: by_) ++
        '.' :: Text.replaceEach (Chain.token config n).toList by_ tail := by
  have hne := hc.token_ne_nil n
  have hpoint := hc.point_notMem_token n
  have hlast : Text.replaceEach (Chain.token config n).toList by_ ('.' :: tail) =
      '.' :: Text.replaceEach (Chain.token config n).toList by_ tail := by
    rw [← List.nil_append ('.' :: tail), Text.replaceEach_append_cons hne hpoint, Text.replaceEach,
      List.nil_append]
  rw [Text.replaceEach_append_cons hne hpoint, Text.replaceEach_append hne, hlast,
    List.append_assoc, List.cons_append]

/-- Above the baseline the class lands in the assembly whose name has the token as it is written,
unless the root assembly's name holds the token of the tier below. -/
theorem within_regular_iff (hc : config.Usable) (hm : config.mark = "global::") {k : Nat}
    (hk : config.baseline ≤ k) (hname : name.toList = (Chain.stem config).toList ++ digits)
    (hdigits : ∀ ch ∈ digits, ch.isDigit = true)
    (hin : Within (config.rootAssembly ++ "." ++ Chain.token config k) space) :
    ∃ s, spec config (Chain.ofTier config (k + 1 : Nat) name)
        (globalMark ++ (space ++ "." ++ simple)) = .ok s ∧
      (Within name s.space ↔
        name = config.rootAssembly ++ "." ++ Chain.token config (k + 1 : Nat) ∧
          ¬ (Chain.token config k).toList <:+: config.rootAssembly.toList) := by
  have hne := hc.token_ne_nil k
  have hpoint := hc.point_notMem_token k
  have hpoint' := hc.point_notMem_token (k + 1)
  let root := config.rootAssembly.toList
  let by_ := (Chain.token config (k + 1 : Nat)).toList
  obtain ⟨tail, htail⟩ := hin.exists_tail simple
  have hrest : '.' ∈ (space ++ "." ++ simple).toList := by
    rw [toList_qualified]
    exact List.mem_append_right _ List.mem_cons_self
  obtain ⟨s, hs, hfull, htype⟩ := exists_spec_regular hc hm hk name hrest
  refine ⟨s, hs, ?_⟩
  have hpath : (space ++ "." ++ simple).toList =
      root ++ '.' :: ((Chain.token config k).toList ++ '.' :: tail) := by
    rw [htail, toList_qualified, List.append_assoc, List.cons_append]
  have hlifted : (s.space ++ "." ++ s.type).toList =
      (Text.replaceEach (Chain.token config k).toList by_ root ++ '.' :: by_) ++
        '.' :: Text.replaceEach (Chain.token config k).toList by_ tail := by
    rw [Spec.fullName, toList_marked, toList_marked, hc.replaceEach_marked, hpath,
      replaceEach_path hc] at hfull
    exact List.append_cancel_left hfull
  have hstem : name.toList = root ++ '.' :: (config.language.toList ++ digits) := by
    rw [hname, Chain.toList_stem, List.append_assoc, List.cons_append]
  have hnumber : '.' ∉ config.language.toList ++ digits := by
    rw [List.mem_append, not_or]
    refine ⟨fun h => (hc.of_mem h).1 rfl, ?_⟩
    intro h
    exact absurd (hdigits _ h) (by decide)
  -- replacing keeps the points, so that the assembly's name can only be the root and the token
  rw [within_iff htype, hlifted, hstem,
    Text.front_path_iff hnumber hpoint' (Text.count_replaceEach hne hpoint hpoint' root),
    ← String.toList_inj, toList_qualified, hstem]
  constructor
  · rintro ⟨hroot, htoken⟩
    refine ⟨by rw [htoken], ?_⟩
    intro hocc
    exact Text.replaceEach_ne hne (Chain.length_token_le config k)
      (Chain.token_ne_token_succ config k) hocc hroot
  · rintro ⟨htoken, habsent⟩
    exact ⟨Text.replaceEach_absent habsent, (List.cons.inj (List.append_cancel_left htoken)).2⟩

/-- The root assembly's name does not begin in the global mark: it would end before the second colon,
but it has a point. -/
theorem root_behind_mark (hp : config.problems = []) {rest u v : List Char}
    (h : globalMark.toList ++ rest = u ++ config.rootAssembly.toList ++ v) :
    globalMark.toList.length ≤ u.length := by
  by_contra hlt
  have hcolon : ':' ∉ config.rootAssembly.toList :=
    Config.notMem_rootAssembly hp (by decide) (by decide) (by decide)
  have hpoint : '.' ∈ config.rootAssembly.toList := by
    rw [Config.rootAssembly, toList_qualified]
    exact List.mem_append_right _ List.mem_cons_self
  have hcut : "global:".toList ++ ':' :: rest = u ++ config.rootAssembly.toList ++ v := h
  have hlength : globalMark.toList.length = "global:".toList.length + 1 := by decide
  have hocc : config.rootAssembly.toList <:+: "global:".toList :=
    Text.infix_of_front hcolon hcut (by omega)
  have hnone : '.' ∉ "global:".toList := by decide
  exact hnone (hocc.subset hpoint)

/-- The root assembly's name first occurs right behind the global mark of a name from there. -/
theorem firstAt_root (hp : config.problems = []) (tail : List Char) :
    Text.FirstAt config.rootAssembly.toList globalMark.toList ('.' :: tail)
      (globalMark.toList ++ (config.rootAssembly.toList ++ '.' :: tail)) :=
  ⟨(List.append_assoc _ _ _).symm, fun _ _ huv => root_behind_mark hp huv⟩

/-- A linked assembly's name has no colon. -/
theorem colon_notMem_name (hp : config.problems = [])
    (hname : name.toList = (Chain.stem config).toList ++ digits)
    (hdigits : ∀ ch ∈ digits, ch.isDigit = true) : ':' ∉ name.toList := by
  have hc : config.Usable := Config.usable_of_problems hp
  have hroot : ':' ∉ config.rootAssembly.toList :=
    Config.notMem_rootAssembly hp (by decide) (by decide) (by decide)
  have hlanguage : ':' ∉ config.language.toList := by
    intro h
    rcases hc.word ':' h with hstart | hfeed
    · exact absurd hstart (by decide)
    · exact absurd hfeed (by decide)
  have hnumber : ':' ∉ digits := fun h => absurd (hdigits ':' h) (by decide)
  rw [hname, Chain.toList_stem, List.mem_append, List.mem_append, List.mem_cons]
  rintro ((h | h | h) | h)
  · exact hroot h
  · cases h
  · exact hlanguage h
  · exact hnumber h

/-- The first point of a marked name stands behind the colons, whatever is put in. -/
theorem colon_mem_front {pattern token rest x : List Char} (ht : '.' ∉ token)
    (h : x ++ ['.'] <+: Text.replaceFirst pattern (token ++ pattern) (globalMark.toList ++ rest)) :
    ':' ∈ x := by
  refine Text.mem_front_replaceFirst ht ?_ h
  intro y hy
  rcases Text.front_append_cases hy with hmark | ⟨t, rfl, -⟩
  · have hnone : '.' ∉ globalMark.toList := by decide
    exact absurd (hmark.subset (List.mem_append_right y List.mem_cons_self)) hnone
  · have hmem : ':' ∈ globalMark.toList := by decide
    exact List.mem_append_left t hmem

/-- At the baseline the class lands in the assembly if the suffix, in front of which the token is put
in, is not found before the end of the assembly's name. -/
theorem within_baseline_iff (hp : config.problems = []) (hm : config.mark = "global::") {n : Nat}
    (hn : config.baseline = n) (hname : name.toList = (Chain.stem config).toList ++ digits)
    (hdigits : ∀ ch ∈ digits, ch.isDigit = true) (hin : Within config.rootAssembly space) :
    ∃ s, spec config (Chain.ofTier config n name) (globalMark ++ (space ++ "." ++ simple)) = .ok s ∧
      (Within name s.space ↔ SuffixBehind config (Chain.ofTier config n name)
        (globalMark ++ (space ++ "." ++ simple))) ∧
      ('.' ∉ config.suffix.toList → (Within name s.space ↔
        ¬ config.suffix.toList <:+: (globalMark ++ name).toList)) := by
  have hc : config.Usable := Config.usable_of_problems hp
  let candidate := globalMark ++ (space ++ "." ++ simple)
  let front := globalMark.toList ++ name.toList
  have htoken := hc.token_ne_nil n
  have hpoint := hc.point_notMem_token n
  have hchain := Chain.ofTier_baseline hn name
  obtain ⟨tail, htail⟩ := hin.exists_tail simple
  -- first the root assembly's name is replaced behind the mark, then the token goes in
  have hmoved : Text.replaceFirst config.rootAssembly.toList name.toList candidate.toList =
      front ++ '.' :: tail := by
    rw [toList_marked, htail, (firstAt_root hp tail).replaceFirst]
  have hlift : (lift config (Chain.ofTier config n name) candidate).toList =
      Text.replaceFirst config.suffix.toList
        ((Chain.token config n).toList ++ config.suffix.toList) (front ++ '.' :: tail) := by
    rw [toList_lift_baseline (by rw [hchain]), hchain, hmoved]
  have hbehind : SuffixBehind config (Chain.ofTier config n name) candidate ↔
      ∀ u v, front ++ '.' :: tail = u ++ config.suffix.toList ++ v →
        (front ++ ['.']).length ≤ u.length := by
    have hfront : (globalMark ++ name ++ ".").toList = front ++ ['.'] := by
      rw [String.toList_append, String.toList_append]
      rfl
    unfold SuffixBehind
    rw [hchain]
    dsimp only
    rw [hmoved, hfront]
  have hcandidate : '.' ∈ candidate.toList := by
    rw [toList_marked, toList_qualified]
    exact List.mem_append_right _ (List.mem_append_right _ List.mem_cons_self)
  have hlifted : '.' ∈ (lift config (Chain.ofTier config n name) candidate).toList := by
    rw [hlift]
    apply Text.mem_replaceFirst (List.mem_append_right _ List.mem_cons_self)
    exact List.mem_append_right _
  obtain ⟨baseSpace, baseType, hb⟩ := exists_split config.mark hcandidate
  obtain ⟨space', type', hs⟩ := exists_split config.mark hlifted
  have hlands : Within name space' ↔
      SuffixBehind config (Chain.ofTier config n name) candidate := by
    -- the token may break the mark, but no colon is lost
    have hmarked : ∀ x, x ++ ['.'] <+:
        (lift config (Chain.ofTier config n name) candidate).toList → ':' ∈ x := by
      intro x hx
      rw [hlift, List.append_assoc] at hx
      exact colon_mem_front hpoint hx
    rw [hbehind, ← Text.front_replaceFirst_iff htoken hpoint (Text.front_self _ _ _), ← hlift]
    exact within_split_iff (hm ▸ hs) (colon_notMem_name hp hname hdigits) hmarked
  refine ⟨⟨space', type', baseSpace, baseType⟩, spec_eq_ok_iff.mpr ⟨hb, hs⟩, hlands, ?_⟩
  intro hsuffix
  rw [hlands, hbehind, Text.behind_iff hsuffix, toList_marked]

/-- Where the class lands whose base is in the previous assembly. At the baseline it is in the
current assembly exactly when the suffix is not found before the end of that assembly's name; above
the baseline, when that name ends in the current token and the root assembly's name does not hold the
token of the tier below. -/
theorem within_current_iff {config : Config} {s₀ : Session} {name space simple : String}
    {chain : Chain} (hvalid : ((Generator.ensureValid config).runIn s₀).1 = .ok ())
    (hmark : config.mark = "global::") (h : Generator.resolved config name = .ok (some chain))
    (hin : Within chain.previousAssembly space) :
    ∃ s, spec config chain (globalMark ++ (space ++ "." ++ simple)) = .ok s ∧
      (chain.tier = config.baseline →
        (Within chain.currentAssembly s.space ↔
          SuffixBehind config chain (globalMark ++ (space ++ "." ++ simple))) ∧
        ('.' ∉ config.suffix.toList → (Within chain.currentAssembly s.space ↔
          ¬ config.suffix.toList <:+: (globalMark ++ chain.currentAssembly).toList))) ∧
      (config.baseline < chain.tier →
        (Within chain.currentAssembly s.space ↔
          chain.currentAssembly = config.rootAssembly ++ "." ++ chain.currentToken ∧
            ¬ chain.previousToken.toList <:+: config.rootAssembly.toList)) := by
  have hp : config.problems = [] := Generator.ensureValid_eq_ok_iff.mp hvalid
  have hc : config.Usable := Config.usable_of_problems hp
  have hpositive := hc.positive
  obtain ⟨digits, hname, -, hdigits, -, hb, rfl⟩ :=
    Chain.standing_eq_link_iff.mp (Generator.resolved_eq_link_iff.mp h)
  generalize Nat.ofDigitChars 10 digits 0 = n at hb hin ⊢
  by_cases hn : config.baseline = n
  · rw [Chain.ofTier_baseline hn] at hin
    obtain ⟨s, hs, hlands, hplain⟩ := within_baseline_iff hp hmark hn hname hdigits hin
    refine ⟨s, hs, fun _ => ⟨hlands, hplain⟩, ?_⟩
    intro hlt
    exact absurd hn (Int.ne_of_lt hlt)
  · obtain ⟨k, rfl⟩ : ∃ k, n = k + 1 := ⟨n - 1, by omega⟩
    have hk : config.baseline ≤ k := by omega
    rw [Chain.ofTier_succ hk] at hin
    obtain ⟨s, hs, hlands⟩ := within_regular_iff hc hmark hk hname hdigits hin
    refine ⟨s, hs, ?_, ?_⟩
    · intro he
      exact absurd he.symm hn
    · intro _
      rw [Chain.ofTier_succ hk]
      exact hlands

/-- A test class of the seventh tier lands in the assembly of the eighth. -/
theorem within_current_iff_eight :
    ((Generator.ensureValid .default).runIn (.start none)).1 = .ok () ∧
      ∃ chain, Generator.resolved .default "StyleCop.Analyzers.Test.CSharp8" = .ok (some chain) ∧
        chain.tier = 8 ∧ Within chain.previousAssembly "StyleCop.Analyzers.Test.CSharp7.Spacing" ∧
        ∃ s, spec .default chain (globalMark ++
            ("StyleCop.Analyzers.Test.CSharp7.Spacing" ++ "." ++ "FooCSharp7UnitTests")) = .ok s ∧
          Within chain.currentAssembly s.space := by
  have hvalid : ((Generator.ensureValid .default).runIn (.start none)).1 = .ok () :=
    Generator.ensureValid_eq_ok_iff.mpr (by decide)
  have hn : Generator.Numbered .default "StyleCop.Analyzers.Test.CSharp8" ['8'] :=
    ⟨by decide, by decide, by simp⟩
  have h := Generator.resolved_eq_chain_iff.mpr ⟨_, hn, by decide, by decide, rfl⟩
  have hin : Within (Chain.ofTier .default (Nat.ofDigitChars 10 ['8'] 0 : Nat)
      "StyleCop.Analyzers.Test.CSharp8").previousAssembly
      "StyleCop.Analyzers.Test.CSharp7.Spacing" := Or.inr ⟨"Spacing", by decide⟩
  obtain ⟨s, hs, -, habove⟩ := @within_current_iff _ _ _ _ "FooCSharp7UnitTests" _ hvalid rfl h hin
  refine ⟨hvalid, _, h, by decide, hin, s, hs, (habove (by decide)).mpr ⟨by decide, ?_⟩⟩
  rw [← Text.occursIn_iff]
  decide

/-- With a zero in front of the number the assembly has another name than the one that the token
leads to. -/
theorem zeros_land_outside :
    ((Generator.ensureValid .default).runIn (.start none)).1 = .ok () ∧
      ∃ chain, Generator.resolved .default "StyleCop.Analyzers.Test.CSharp08" = .ok (some chain) ∧
        Naming.accepts ⟨chain.previousToken, Config.default.suffix⟩ "FooCSharp7UnitTests" = true ∧
        Within chain.previousAssembly "StyleCop.Analyzers.Test.CSharp7.Spacing" ∧
        ∃ s, spec .default chain (globalMark ++
            ("StyleCop.Analyzers.Test.CSharp7.Spacing" ++ "." ++ "FooCSharp7UnitTests")) = .ok s ∧
          s.space = "StyleCop.Analyzers.Test.CSharp8.Spacing" ∧
          ¬ Within chain.currentAssembly s.space := by
  have hn : Generator.Numbered .default "StyleCop.Analyzers.Test.CSharp08" ['0', '8'] :=
    ⟨by decide, by decide, by simp⟩
  refine ⟨Generator.ensureValid_eq_ok_iff.mpr (by decide), _,
    Generator.resolved_eq_chain_iff.mpr ⟨_, hn, by decide, by decide, rfl⟩, by decide,
    Or.inr ⟨"Spacing", by decide⟩,
    ⟨"StyleCop.Analyzers.Test.CSharp8.Spacing", "FooCSharp8UnitTests",
      "StyleCop.Analyzers.Test.CSharp7.Spacing", "FooCSharp7UnitTests"⟩, by decide +kernel, rfl, ?_⟩
  have htype : '.' ∉ "FooCSharp8UnitTests".toList := by decide
  rw [within_iff htype, ← List.isPrefixOf_iff_prefix]
  decide

end Rename

end TierHost
