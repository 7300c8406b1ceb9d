import TierHost.Lint.Analyzer
import TierHost.Proofs.Listing

/-!
Registered actions. For each kind of node the actions stand in the order of their registration, as
often as the kind was named.
-/

namespace TierHost.Actions

variable {α : Type}

/-- Registers actions one after another, each for its kinds. -/
def registerAll (regs : List (α × List Kind)) : Except String (Actions α) :=
  regs.foldlM (fun actions reg => actions.register reg.1 reg.2) []

theorem of_put (actions : Actions α) (k k' : Kind) (as : List α) :
    Actions.of (actions.put k as) k' = if k = k' then as else actions.of k' := by
  rw [of, Listing.get?_put]
  by_cases h : k = k'
  · rw [if_pos h, if_pos h, Option.getD_some]
  · rw [if_neg h, if_neg h, of]

theorem of_foldl_put (actions : Actions α) (action : α) (kinds : List Kind) (k : Kind) :
    Actions.of (kinds.foldl (fun actions k => actions.put k (actions.of k ++ [action])) actions) k =
      actions.of k ++ List.replicate (kinds.count k) action := by
  induction kinds generalizing actions with
  | nil => rw [List.foldl_nil, List.count_nil, List.replicate_zero, List.append_nil]
  | cons k' kinds ih =>
    rw [List.foldl_cons, ih, of_put]
    by_cases h : k' = k
    · rw [if_pos h, h, List.count_cons_self, List.append_assoc, Nat.add_comm, List.replicate_add]
      rfl
    · rw [if_neg h, List.count_cons_of_ne h]

/-- Registering for some kind succeeds. -/
theorem register_eq_ok {kinds : List Kind} (h : kinds ≠ []) (actions : Actions α) (action : α) :
    actions.register action kinds =
      .ok (kinds.foldl (fun actions k => actions.put k (actions.of k ++ [action])) actions) := by
  have hnonempty : kinds.isEmpty = false := List.isEmpty_eq_false_iff.mpr h
  rw [register, hnonempty]
  rfl

theorem foldlM_register_eq_ok {regs : List (α × List Kind)} (h : ∀ reg ∈ regs, reg.2 ≠ [])
    (actions : Actions α) :
    ∃ actions', regs.foldlM (fun actions reg => actions.register reg.1 reg.2) actions = .ok actions' ∧
      ∀ k, Actions.of actions' k =
        actions.of k ++ regs.flatMap fun reg => List.replicate (reg.2.count k) reg.1 := by
  induction regs generalizing actions with
  | nil => exact ⟨actions, rfl, fun k => (List.append_nil _).symm⟩
  | cons reg regs ih =>
    have hreg := register_eq_ok (h reg List.mem_cons_self) actions reg.1
    obtain ⟨actions', hactions', hof⟩ := ih (fun r hr => h r (List.mem_cons_of_mem reg hr)) _
    refine ⟨actions', ?_, ?_⟩
    · rw [List.foldlM_cons, hreg]
      exact hactions'
    · intro k
      rw [hof k, of_foldl_put, List.flatMap_cons, List.append_assoc]

/-- If every action is registered for some kind, then for each kind the actions stand in the order of
their registration, each as often as it was registered for the kind. -/
theorem exists_registerAll {regs : List (α × List Kind)} (h : ∀ reg ∈ regs, reg.2 ≠ []) :
    ∃ actions, registerAll regs = .ok actions ∧
      ∀ k, actions.of k = regs.flatMap fun reg => List.replicate (reg.2.count k) reg.1 :=
  foldlM_register_eq_ok h []

theorem registerAll_eq_error {regs : List (α × List Kind)} (h : ∃ reg ∈ regs, reg.2 = []) :
    registerAll regs = .error noKinds := by
  rw [registerAll]
  generalize ([] : Actions α) = actions
  induction regs generalizing actions with
  | nil => simp at h
  | cons reg regs ih =>
    rw [List.foldlM_cons]
    by_cases hreg : reg.2 = []
    · rw [hreg]
      rfl
    · rw [register_eq_ok hreg]
      refine ih ?_ _
      obtain ⟨r, hr, hempty⟩ := h
      rcases List.mem_cons.mp hr with rfl | hr
      · exact absurd hempty hreg
      · exact ⟨r, hr, hempty⟩

end TierHost.Actions
