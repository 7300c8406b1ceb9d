import TierHost.Proofs.Mapping
import TierHost.Proofs.Symbols.Dotted
import TierHost.Proofs.Tier.Valid

/-!
The names that carry a test class up one tier. Splitting a marked name takes the mark off, and a
name with a point still has one when it is lifted, so that neither split of a candidate can fail.
-/

namespace TierHost

namespace Rename

theorem dropLeading_append (front s : List Char) : Text.dropLeading front (front ++ s) = s := by
  rw [Text.dropLeading, if_pos (List.isPrefixOf_iff_prefix.mpr (List.prefix_append front s)),
    List.drop_left]

theorem exists_split (mark : String) {qualified : String} (h : '.' ∈ qualified.toList) :
    ∃ space type, split mark qualified = .ok (space, type) := by
  unfold split
  cases hs : Text.splitAtLast '.' qualified.toList with
  | none => exact absurd h (Text.splitAtLast_eq_none_iff.mp hs)
  | some parts => exact ⟨_, _, rfl⟩

/-- A marked name is split at its last point, which stands behind the mark. -/
theorem split_marked_iff {mark rest space type : String} (hm : '.' ∉ mark.toList) :
    split mark (mark ++ rest) = .ok (space, type) ↔
      rest = space ++ "." ++ type ∧ '.' ∉ type.toList := by
  constructor
  · intro h
    unfold split at h
    split at h
    · next before after hs =>
      obtain ⟨hsplit, hafter⟩ := Text.splitAtLast_eq_some_iff.mp hs
      rw [String.toList_append] at hsplit
      -- the point is not in the mark, so the mark ends before it
      have hbefore : ∃ front, before = mark.toList ++ front ∧ rest.toList = front ++ '.' :: after := by
        rcases List.append_eq_append_iff.mp hsplit with ⟨front, hb, hr⟩ | ⟨front, hb, hr⟩
        · exact ⟨front, hb, hr⟩
        · cases front with
          | nil => exact ⟨[], by simpa using hb.symm, by simpa using hr.symm⟩
          | cons c cs =>
            obtain rfl := (List.cons.inj hr).1
            exact absurd (hb ▸ List.mem_append_right before List.mem_cons_self) hm
      obtain ⟨front, rfl, hrest⟩ := hbefore
      rw [dropLeading_append] at h
      cases h
      refine ⟨String.toList_inj.mp ?_, by simpa using hafter⟩
      simp only [String.toList_append, String.toList_ofList, List.append_assoc]
      exact hrest
    · cases h
  · rintro ⟨rfl, ht⟩
    have hs : Text.splitAtLast '.' (mark ++ (space ++ "." ++ type)).toList =
        some (mark.toList ++ space.toList, type.toList) := by
      have hl : (mark ++ (space ++ "." ++ type)).toList =
          (mark.toList ++ space.toList) ++ '.' :: type.toList := by
        simp only [String.toList_append, List.append_assoc]
        rfl
      rw [hl, Text.splitAtLast_append ht]
    rw [split, hs]
    simp only [dropLeading_append, String.ofList_toList]

theorem spec_eq_ok_iff {config : Config} {chain : Chain} {candidate : String} {s : Spec} :
    spec config chain candidate = .ok s ↔
      split config.mark candidate = .ok (s.baseSpace, s.baseType) ∧
        split config.mark (lift config chain candidate) = .ok (s.space, s.type) := by
  unfold spec
  rw [except_bind_eq_ok]
  constructor
  · rintro ⟨⟨baseSpace, baseType⟩, hb, h⟩
    obtain ⟨⟨space, type⟩, hl, h⟩ := (except_bind_eq_ok _ _ _).mp h
    cases h
    exact ⟨hb, hl⟩
  · rintro ⟨hb, hl⟩
    exact ⟨_, hb, (except_bind_eq_ok _ _ _).mpr ⟨_, hl, rfl⟩⟩

/-- A name that can be lifted: it is marked as starting from the global namespace, and has a point. -/
structure Liftable (candidate : String) : Prop where
  marked : globalMark.toList <+: candidate.toList
  pointed : '.' ∈ candidate.toList

theorem Liftable.exists_rest {candidate : String} (h : Liftable candidate) :
    ∃ rest, candidate = globalMark ++ rest ∧ '.' ∈ rest.toList := by
  obtain ⟨tail, htail⟩ := h.marked
  have hcandidate : candidate = globalMark ++ String.ofList tail := by
    apply String.toList_inj.mp
    rw [String.toList_append, String.toList_ofList, htail]
  refine ⟨String.ofList tail, hcandidate, ?_⟩
  have hmark : '.' ∉ globalMark.toList := by decide
  have hpoint := h.pointed
  rw [hcandidate, String.toList_append, List.mem_append] at hpoint
  exact hpoint.resolve_left hmark

/-- At the baseline the assembly's name and the token are put in once each. -/
theorem toList_lift_baseline {config : Config} {chain : Chain} (h : chain.previousToken = "")
    (candidate : String) :
    (lift config chain candidate).toList =
      Text.replaceFirst config.suffix.toList (chain.currentToken.toList ++ config.suffix.toList)
        (Text.replaceFirst chain.previousAssembly.toList chain.currentAssembly.toList
          candidate.toList) := by
  have hroot : chain.followsRoot = true := by rw [Chain.followsRoot, h]; rfl
  unfold lift
  rw [String.toList_ofList, if_pos hroot]

/-- In any other tier the token of the tier below is replaced wherever it occurs. -/
theorem toList_lift_regular {config : Config} {chain : Chain} (h : chain.previousToken.toList ≠ [])
    (candidate : String) :
    (lift config chain candidate).toList =
      Text.replaceEach chain.previousToken.toList chain.currentToken.toList candidate.toList := by
  have hroot : ¬ chain.followsRoot = true := by simpa [Chain.followsRoot] using h
  unfold lift
  rw [String.toList_ofList, if_neg hroot, Text.replaceAll, if_neg (by simpa using h)]

/-- A candidate's name, which has a point, keeps a point when it is lifted. -/
theorem point_mem_lift {config : Config} (hc : config.Usable) {name : String} {chain : Chain}
    (hl : Chain.standing config name = .link chain) {candidate : String}
    (h : '.' ∈ candidate.toList) : '.' ∈ (lift config chain candidate).toList := by
  obtain ⟨n, hchain, hstem, htier⟩ := hc.link_cases hl
  rcases htier with ⟨-, htoken, -⟩ | ⟨k, -, -, htoken, -⟩
  · have hcurrent : '.' ∈ chain.currentAssembly.toList := by
      have hname : chain.currentAssembly = name := by rw [hchain]; rfl
      rw [hname]
      refine hstem.subset ?_
      rw [Chain.toList_stem]
      exact List.mem_append_right _ List.mem_cons_self
    -- the text put in for the root assembly's name has a point of its own
    rw [toList_lift_baseline htoken]
    apply Text.mem_replaceFirst (Text.mem_replaceFirst h fun _ => hcurrent)
    intro hs
    exact List.mem_append_right _ hs
  · have hne : chain.previousToken.toList ≠ [] := htoken ▸ hc.token_ne_nil k
    have hpoint : '.' ∉ chain.previousToken.toList := htoken ▸ hc.point_notMem_token k
    -- no token has a point, so that no replacement takes one away
    rw [toList_lift_regular hne]
    exact Text.mem_replaceEach hne h hpoint

theorem exists_spec {config : Config} (hc : config.Usable) {name : String} {chain : Chain}
    (hl : Chain.standing config name = .link chain) {candidate : String}
    (h : '.' ∈ candidate.toList) : ∃ s, spec config chain candidate = .ok s := by
  obtain ⟨baseSpace, baseType, hb⟩ := exists_split config.mark h
  obtain ⟨space, type, hs⟩ := exists_split config.mark (point_mem_lift hc hl h)
  exact ⟨⟨space, type, baseSpace, baseType⟩, spec_eq_ok_iff.mpr ⟨hb, hs⟩⟩

end Rename

end TierHost
