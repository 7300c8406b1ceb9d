import TierHost.Proofs.Text.Insertion
import TierHost.Proofs.Tier.Landing

/-!
Lifting at the baseline keeps names apart. The assembly's name grows behind the first place of the root's,
and the token goes in front of the first place of the suffix; both can be taken out again as long as the
suffix does not hold the token's first character.
-/

namespace TierHost

namespace Rename

variable {config : Config} {name : String} {n : Nat}

/-- Names that both have the mark, or both have it not, are told apart by what they are split into. -/
theorem eq_of_split {qualified qualified' : String} {parts : String × String}
    (h : split globalMark qualified = .ok parts) (h' : split globalMark qualified' = .ok parts)
    (hmarked : globalMark.toList <+: qualified.toList ↔ globalMark.toList <+: qualified'.toList) :
    qualified = qualified' := by
  have hsplit (q : String) (hq : split globalMark q = .ok parts) :
      q = if globalMark.toList <+: q.toList then globalMark ++ (parts.1 ++ "." ++ parts.2)
        else parts.1 ++ "." ++ parts.2 := by
    by_cases hstart : globalMark.toList <+: q.toList
    · rw [if_pos hstart]
      obtain ⟨tail, htail⟩ := hstart
      obtain rfl : q = globalMark ++ String.ofList tail := by
        apply String.toList_inj.mp
        rw [toList_marked, String.toList_ofList, htail]
      have hmark : '.' ∉ globalMark.toList := by decide
      rw [((split_marked_iff hmark).mp hq).1]
    · rw [if_neg hstart]
      rcases (split_eq_ok hq).2 with hq' | hq'
      · refine absurd ?_ hstart
        rw [hq', toList_marked]
        exact List.prefix_append _ _
      · exact hq'
  rw [hsplit qualified h, hsplit qualified' h']
  simp only [hmarked]

/-- Moving the root assembly's name up leaves the mark in front. -/
theorem marked_movedUp (hp : config.problems = []) (by_ rest : List Char) :
    globalMark.toList <+:
      Text.replaceFirst config.rootAssembly.toList by_ (globalMark.toList ++ rest) := by
  rcases Text.replaceFirst_cases config.rootAssembly.toList by_ (globalMark.toList ++ rest) with
    ⟨-, he⟩ | ⟨before, after, hfirst, he⟩
  · rw [he]
    exact List.prefix_append _ _
  · have hlong := root_behind_mark hp hfirst.split
    have hbefore : before <+: globalMark.toList ++ rest := by
      rw [hfirst.split, List.append_assoc]
      exact List.prefix_append _ _
    have hmark : globalMark.toList <+: before :=
      List.prefix_of_prefix_length_le (List.prefix_append _ rest) hbefore hlong
    rw [he, List.append_assoc]
    exact hmark.trans (List.prefix_append _ _)

/-- Whether the mark survives depends on the suffix alone. -/
theorem marked_lift_iff (hp : config.problems = []) (hn : config.baseline = n) (name : String)
    (hcolon : ':' ∉ config.suffix.toList) {candidate : String} (h : Liftable candidate) :
    globalMark.toList <+: (lift config (Chain.ofTier config n name) candidate).toList ↔
      ¬ config.suffix.toList <:+: "global:".toList := by
  have hc : config.Usable := Config.usable_of_problems hp
  obtain ⟨rest, rfl, -⟩ := h.exists_rest
  have htoken : ':' ∉ (Chain.token config n).toList :=
    hc.notMem_token (by decide) (by decide) (by decide) n
  obtain ⟨rest', hmoved⟩ := marked_movedUp hp name.toList rest.toList
  have hfront : "global:".toList ++ [':'] <+: globalMark.toList ++ rest' := List.prefix_append _ _
  have hcut : globalMark.toList ++ rest' = "global:".toList ++ ':' :: rest' := rfl
  rw [Chain.ofTier_baseline hn, toList_lift_baseline rfl, toList_marked, ← hmoved]
  calc globalMark.toList <+: Text.replaceFirst config.suffix.toList
          ((Chain.token config n).toList ++ config.suffix.toList) (globalMark.toList ++ rest')
      ↔ ∀ u v, globalMark.toList ++ rest' = u ++ config.suffix.toList ++ v →
          ("global:".toList ++ [':']).length ≤ u.length :=
        Text.front_replaceFirst_iff (hc.token_ne_nil n) htoken hfront
    _ ↔ ¬ config.suffix.toList <:+: "global:".toList := by
        rw [hcut]
        exact Text.behind_iff hcolon

/-- At the baseline no two names are lifted to the same one, if the suffix does not hold the first
character of the token. -/
theorem lift_injective (hc : config.Usable) (hn : config.baseline = n)
    (hname : config.rootAssembly.toList <+: name.toList)
    (hfirst : ∀ ch ∈ config.language.toList.head?, ch ∉ config.suffix.toList) :
    Function.Injective (lift config (Chain.ofTier config n name)) := by
  intro candidate candidate' he
  obtain ⟨extra, hextra⟩ := hname
  obtain ⟨first, word, hword⟩ := List.exists_cons_of_ne_nil hc.named
  have htoken : (Chain.token config n).toList = first :: (word ++ (toString n).toList) := by
    rw [Chain.toList_token, hword, List.cons_append]
  have hsuffix : config.suffix.toList ≠ [] := fun h => hc.suffixed (String.toList_inj.mp h)
  have habsent : first ∉ config.suffix.toList := hfirst first (by rw [hword]; rfl)
  have hlift := congrArg String.toList he
  rw [Chain.ofTier_baseline hn, toList_lift_baseline rfl, toList_lift_baseline rfl, htoken,
    ← hextra] at hlift
  -- first the token is taken out, and then what the assembly's name has grown by
  have hmoved := Text.replaceFirst_before_injective hsuffix habsent _ hlift
  exact String.toList_inj.mp (Text.replaceFirst_behind_injective _ _ hmoved)

/-- At the baseline two classes are never merged: different names get different namespaces or different
simple names, wherever the root assembly's name and the suffix stand in them, if the suffix is made of
name characters and does not hold the first one of the token. -/
theorem spec_separates {config : Config} {s₀ : Session} {name candidate candidate' : String}
    {chain : Chain} (hvalid : ((Generator.ensureValid config).runIn s₀).1 = .ok ())
    (hmark : config.mark = "global::") (h : Generator.resolved config name = .ok (some chain))
    (htier : chain.tier = config.baseline)
    (hsuffix : ∀ ch ∈ config.suffix.toList, Config.isNameChar ch = true)
    (hfirst : ∀ ch ∈ config.language.toList.head?, ch ∉ config.suffix.toList)
    (hcandidate : Liftable candidate) (hcandidate' : Liftable candidate')
    (hne : candidate ≠ candidate') :
    ∃ s s', spec config chain candidate = .ok s ∧ spec config chain candidate' = .ok s' ∧
      (s.space, s.type) ≠ (s'.space, s'.type) := by
  have hp : config.problems = [] := Generator.ensureValid_eq_ok_iff.mp hvalid
  have hc : config.Usable := Config.usable_of_problems hp
  have hl := Generator.resolved_eq_link_iff.mp h
  obtain ⟨s, hs⟩ := exists_spec hc hl hcandidate.pointed
  obtain ⟨s', hs'⟩ := exists_spec hc hl hcandidate'.pointed
  refine ⟨s, s', hs, hs', ?_⟩
  intro he
  obtain ⟨n, rfl, hstem, -⟩ := hc.link_cases hl
  have hn : config.baseline = n := htier.symm
  have hroot : config.rootAssembly.toList <+: name.toList := by
    refine List.IsPrefix.trans ?_ hstem
    rw [Chain.toList_stem]
    exact List.prefix_append _ _
  have hcolon : ':' ∉ config.suffix.toList := by
    intro hmem
    exact absurd (hsuffix ':' hmem) (by decide)
  obtain ⟨-, hsplit⟩ := spec_eq_ok_iff.mp hs
  obtain ⟨-, hsplit'⟩ := spec_eq_ok_iff.mp hs'
  rw [hmark] at hsplit hsplit'
  rw [he] at hsplit
  have hmarked := (marked_lift_iff hp hn name hcolon hcandidate).trans
    (marked_lift_iff hp hn name hcolon hcandidate').symm
  have hlift := eq_of_split hsplit hsplit' hmarked
  exact hne (lift_injective hc hn hroot hfirst hlift)

/-- The names of two classes that differ only in where the suffix and the root's name are repeated. -/
theorem spec_separates_repeated :
    ((Generator.ensureValid .default).runIn (.start none)).1 = .ok () ∧
      ∃ chain, Generator.resolved .default "StyleCop.Analyzers.Test.CSharp7" = .ok (some chain) ∧
        chain.tier = Config.default.baseline ∧
        (∀ ch ∈ Config.default.suffix.toList, Config.isNameChar ch = true) ∧
        (∀ ch ∈ Config.default.language.toList.head?, ch ∉ Config.default.suffix.toList) ∧
        Liftable "global::UnitTests.StyleCop.Analyzers.Test.CSharp7UnitTests" ∧
        Liftable "global::CSharp7UnitTests.StyleCop.Analyzers.Test.UnitTests" ∧
        ∃ s s',
          spec .default chain "global::UnitTests.StyleCop.Analyzers.Test.CSharp7UnitTests" = .ok s ∧
          spec .default chain "global::CSharp7UnitTests.StyleCop.Analyzers.Test.UnitTests" = .ok s' ∧
          (s.space, s.type) ≠ (s'.space, s'.type) := by
  have hvalid : ((Generator.ensureValid .default).runIn (.start none)).1 = .ok () :=
    Generator.ensureValid_eq_ok_iff.mpr (by decide)
  have hn : Generator.Numbered .default "StyleCop.Analyzers.Test.CSharp7" ['7'] :=
    ⟨by decide, by decide, by simp⟩
  have h := Generator.resolved_eq_chain_iff.mpr ⟨_, hn, by decide, by decide, rfl⟩
  have hsuffix : ∀ ch ∈ Config.default.suffix.toList, Config.isNameChar ch = true :=
    List.all_eq_true.mp (by decide)
  have hfirst : ∀ ch ∈ Config.default.language.toList.head?, ch ∉ Config.default.suffix.toList := by
    intro ch hch
    obtain rfl : 'C' = ch := Option.some.inj hch
    decide
  have hcandidate : Liftable "global::UnitTests.StyleCop.Analyzers.Test.CSharp7UnitTests" :=
    ⟨List.isPrefixOf_iff_prefix.mp (by decide), by decide⟩
  have hcandidate' : Liftable "global::CSharp7UnitTests.StyleCop.Analyzers.Test.UnitTests" :=
    ⟨List.isPrefixOf_iff_prefix.mp (by decide), by decide⟩
  exact ⟨hvalid, _, h, by decide, hsuffix, hfirst, hcandidate, hcandidate',
    spec_separates hvalid rfl h (by decide) hsuffix hfirst hcandidate hcandidate' (by decide)⟩

end Rename

end TierHost
