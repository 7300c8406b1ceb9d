import TierHost.Proofs.Tier.Rename
import TierHost.Tier.Source

/-!
What an emitted source unit is made of: its lines, and where the characters of the names in them come
from. Besides the candidate there are only the name of the current assembly and the current token.
-/

namespace TierHost

/-- The lines of the source unit of a class. -/
def Spec.lines (s : Spec) : List String := [
  "// <auto-generated/>", "", "#nullable enable", "", "namespace " ++ s.space ++ ";", "",
  "using " ++ s.baseSpace ++ ";", "", "public partial class " ++ s.type, "    : " ++ s.baseType,
  "\x7b", "\x7d"]

theorem Text.allBlank_append (s t : String) : allBlank (s ++ t) = (allBlank s && allBlank t) := by
  rw [allBlank, String.toList_append, List.all_append]
  rfl

/-- A line with visible text is written behind its indentation. -/
theorem Layout.line_visible {code : String} (h : Text.allBlank code = false) (l : Layout) :
    l.line code = { l with written :=
      l.written ++ (String.join (List.replicate l.level l.unit) ++ code) ++ "\n" } := by
  rw [line, if_neg (ne_true_of_eq_false h)]

/-- The text of a source unit is its lines, each with a line feed. -/
theorem Spec.render_eq_lines (s : Spec) : s.render = String.join (s.lines.map (· ++ "\n")) := by
  have hspace : Text.allBlank ("namespace " ++ s.space ++ ";") = false := by
    rw [Text.allBlank_append, Text.allBlank_append]
    rfl
  have hbaseSpace : Text.allBlank ("using " ++ s.baseSpace ++ ";") = false := by
    rw [Text.allBlank_append, Text.allBlank_append]
    rfl
  have htype : Text.allBlank ("public partial class " ++ s.type) = false := by
    rw [Text.allBlank_append]
    rfl
  have hbase : Text.allBlank (": " ++ s.baseType) = false := by
    rw [Text.allBlank_append]
    rfl
  have hfixed : ∀ code ∈ ["// <auto-generated/>", "#nullable enable", "\x7b", "\x7d"],
      Text.allBlank code = false := by decide
  simp only [List.forall_mem_cons] at hfixed
  obtain ⟨hmark, hnullable, hopen, hclose, -⟩ := hfixed
  apply String.toList_inj.mp
  simp [render, commands, lines, Layout.runAll, Layout.statesAll, Layout.states, Layout.empty,
    Layout.line_visible hspace, Layout.line_visible hbaseSpace, Layout.line_visible htype,
    Layout.line_visible hbase, Layout.line_visible hmark, Layout.line_visible hnullable,
    Layout.line_visible hopen, Layout.line_visible hclose, Layout.blank, Layout.indent,
    Layout.dedent, Layout.openBlock, Layout.closeBlock, Layout.usualUnit, String.join]

theorem Text.mem_of_mem_dropLeading {front s : List Char} {c : Char} (h : c ∈ dropLeading front s) :
    c ∈ s := by
  rw [dropLeading] at h
  split at h
  · exact List.mem_of_mem_drop h
  · exact h

namespace Rename

/-- Both parts of a split name are parts of it. -/
theorem mem_of_split {mark qualified space type : String} {c : Char}
    (h : split mark qualified = .ok (space, type)) (hc : c ∈ space.toList ∨ c ∈ type.toList) :
    c ∈ qualified.toList := by
  unfold split at h
  split at h
  · next before after hs =>
    obtain ⟨hsplit, -⟩ := Text.splitAtLast_eq_some_iff.mp hs
    cases h
    rw [String.toList_ofList, String.toList_ofList] at hc
    rw [hsplit]
    rcases hc with hbefore | hafter
    · exact List.mem_append_left _ (Text.mem_of_mem_dropLeading hbefore)
    · exact List.mem_append_right _ (List.mem_cons_of_mem _ hafter)
  · cases h

/-- A character of a lifted name is one of the candidate, or was put in. -/
theorem mem_of_mem_lift {config : Config} (hc : config.Usable) {name : String} {chain : Chain}
    (hl : Chain.standing config name = .link chain) {candidate : String} {c : Char}
    (h : c ∈ (lift config chain candidate).toList) :
    c ∈ candidate.toList ∨ c ∈ chain.currentAssembly.toList ∨ c ∈ chain.currentToken.toList := by
  obtain ⟨n, -, -, htier⟩ := hc.link_cases hl
  rcases htier with ⟨-, htoken, -⟩ | ⟨k, -, -, htoken, -⟩
  · rw [toList_lift_baseline htoken] at h
    let moved := Text.replaceFirst chain.previousAssembly.toList chain.currentAssembly.toList
      candidate.toList
    -- the suffix that is put back in was there before
    have hmoved : c ∈ moved ∨ c ∈ chain.currentToken.toList := by
      rcases Text.mem_of_mem_replaceFirst h with hm | ⟨hoccurs, hm⟩
      · exact Or.inl hm
      · rcases List.mem_append.mp hm with ht | hs
        · exact Or.inr ht
        · exact Or.inl (hoccurs.subset hs)
    rcases hmoved with hm | ht
    · exact (Text.mem_of_mem_replaceFirst hm).imp id fun ha => Or.inl ha.2
    · exact Or.inr (Or.inr ht)
  · have hne : chain.previousToken.toList ≠ [] := htoken ▸ hc.token_ne_nil k
    rw [toList_lift_regular hne] at h
    by_cases hcandidate : c ∈ candidate.toList
    · exact Or.inl hcandidate
    · refine Or.inr (Or.inr ?_)
      by_contra ht
      exact Text.notMem_replaceEach hne hcandidate ht h

/-- The names of the emitted class and of its base are made of the candidate's characters and those of
the current assembly's name and token. -/
theorem mem_of_spec {config : Config} (hc : config.Usable) {name : String} {chain : Chain}
    (hl : Chain.standing config name = .link chain) {candidate : String} {sp : Spec}
    (hspec : spec config chain candidate = .ok sp) {c : Char}
    (h : c ∈ sp.space.toList ∨ c ∈ sp.type.toList ∨ c ∈ sp.baseSpace.toList ∨
      c ∈ sp.baseType.toList) :
    c ∈ candidate.toList ∨ c ∈ chain.currentAssembly.toList ∨ c ∈ chain.currentToken.toList := by
  obtain ⟨hbase, hlifted⟩ := spec_eq_ok_iff.mp hspec
  rcases h with h | h | h | h
  · exact mem_of_mem_lift hc hl (mem_of_split hlifted (Or.inl h))
  · exact mem_of_mem_lift hc hl (mem_of_split hlifted (Or.inr h))
  · exact Or.inl (mem_of_split hbase (Or.inl h))
  · exact Or.inl (mem_of_split hbase (Or.inr h))

end Rename

end TierHost
