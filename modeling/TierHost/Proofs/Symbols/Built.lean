import TierHost.Proofs.Symbols.Placed
import TierHost.Symbols.Builder

/-!
Trees built from names have all their paths in place, as those read from dumps do.
-/

namespace TierHost

/-- All members have the paths that follow from the names, below this path. -/
def AllPlaced (path : String) (members : List Member) : Prop := ∀ m ∈ members, m.Placed path

theorem AllPlaced.cons {path : String} {m : Member} {ms : List Member} (hm : m.Placed path)
    (hms : AllPlaced path ms) : AllPlaced path (m :: ms) :=
  List.forall_mem_cons.mpr ⟨hm, hms⟩

theorem AllPlaced.nil (path : String) : AllPlaced path [] := fun _ h => absurd h List.not_mem_nil

theorem AllPlaced.inNamespace {path name : String} {change : List Member → List Member}
    (hc : ∀ ms, AllPlaced (extendPath path name) ms → AllPlaced (extendPath path name) (change ms))
    {members : List Member} (h : AllPlaced path members) :
    AllPlaced path (TierHost.inNamespace path name change members) := by
  have hnew (rest : List Member) (hrest : AllPlaced path rest) :
      AllPlaced path (.space name path (change []) :: rest) :=
    .cons (.space (hc [] (.nil _))) hrest
  induction members with
  | nil => exact hnew [] h
  | cons m rest ih =>
    obtain ⟨hm, hrest⟩ := List.forall_mem_cons.mp h
    cases hm with
    | @space _ other inner hinner =>
      rw [TierHost.inNamespace]
      by_cases he : other = name
      · subst he
        rw [if_pos rfl]
        exact .cons (.space (hc inner hinner)) hrest
      · rw [if_neg he]
        exact .cons (.space hinner) (ih hrest)
    | type ht => exact hnew _ (.cons (.type ht) hrest)

/-- Adding a type keeps all paths in place. -/
theorem AllPlaced.addType {path : String} {parts : List String} {name : String}
    {members : List Member} (h : AllPlaced path members) :
    AllPlaced path (TierHost.addType path parts name members) := by
  induction parts generalizing path members with
  | nil =>
    rw [TierHost.addType]
    by_cases ht : members.any (Member.isTypeNamed name) = true
    · rwa [if_pos ht]
    · rw [if_neg ht]
      intro m hm
      rcases List.mem_append.mp hm with hm | hm
      · exact h m hm
      · obtain rfl := List.mem_singleton.mp hm
        exact .type (.intro fun t ht => absurd ht List.not_mem_nil)
  | cons part parts ih =>
    -- the path grows by the segment that the namespace is entered with
    rw [TierHost.addType]
    exact h.inNamespace fun ms hms => ih hms

theorem AllPlaced.foldl_addType {entries : List (List String × String)} {members : List Member}
    (h : AllPlaced "" members) :
    AllPlaced ""
      (entries.foldl (fun members entry => TierHost.addType "" entry.1 entry.2 members) members) := by
  induction entries generalizing members with
  | nil => exact h
  | cons entry entries ih => exact ih h.addType

theorem buildTree_eq_ok {names : List String} {root : Namespace} (h : buildTree names = .ok root) :
    root.toMember.Placed "" := by
  unfold buildTree at h
  split at h
  · cases h
  · dsimp only at h
    split at h
    · cases h
    · cases h
      exact .space (AllPlaced.nil "").foldl_addType

theorem buildAssembly_eq_ok {name : String} {types : List String} {a : Assembly}
    (h : buildAssembly name types = .ok a) : a.Placed := by
  unfold buildAssembly at h
  cases ht : buildTree types with
  | error e =>
    rw [ht] at h
    cases h
  | ok root =>
    rw [ht] at h
    cases h
    exact buildTree_eq_ok ht

end TierHost
