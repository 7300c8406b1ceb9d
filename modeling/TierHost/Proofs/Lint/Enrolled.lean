import TierHost.Proofs.Lint.Selected
import Mathlib.Data.List.DropRight
import Mathlib.Data.List.Induction

/-!
The history of a registry. What is registered under a name depends on the calls since it was last
unregistered, and so does its place among the others; whether it is switched on depends on all calls.
-/

namespace TierHost.Registry

/-- What a host may do with a registry. -/
inductive Call where
  | register (a : Analyzer)
  | unregister (name : String)
  | disable (name : String)
  | enable (name : String)

/-- The registry after a call; a registration that fails leaves it as it was. -/
def call (r : Registry) : Call → Registry
  | .register a => (r.register a).toOption.getD r
  | .unregister name => r.unregister name
  | .disable name => r.disable name
  | .enable name => r.enable name

/-- The registry after calls one after another. -/
def after (calls : List Call) : Registry := calls.foldl call .empty

/-- The analyzer that a call registers under a name, if it has rules. -/
def Call.enrols? (name : String) : Call → Option Analyzer
  | .register a => if a.name = name ∧ a.supported ≠ [] then some a else none
  | _ => none

def Call.removes (name : String) : Call → Bool
  | .unregister name' => name' = name
  | _ => false

/-- Whether a call switches a name on or off, if it does either. -/
def Call.switches? (name : String) : Call → Option Bool
  | .disable name' => if name' = name then some false else none
  | .enable name' => if name' = name then some true else none
  | _ => none

/-- The calls since a name was last unregistered. -/
def since (name : String) (calls : List Call) : List Call :=
  calls.rtakeWhile fun c => !c.removes name

/-- The analyzer that was registered last under a name since the name was last unregistered. -/
def latest? (name : String) (calls : List Call) : Option Analyzer :=
  (since name calls).reverse.findSome? (Call.enrols? name)

/-- The place among the calls of the first that registered something under a name since the name was
last unregistered. -/
def place (name : String) (calls : List Call) : ℕ :=
  (calls.length - (since name calls).length) +
    (since name calls).findIdx fun c => (c.enrols? name).isSome

/-- Whether a name was last switched on or off, if it ever was. -/
def lastSwitch? (name : String) (calls : List Call) : Option Bool :=
  calls.reverse.findSome? (Call.switches? name)

section

variable {calls : List Call} {c : Call} {name : String}

theorem Call.removes_of_enrols? (h : (c.enrols? name).isSome = true) (name' : String) :
    c.removes name' = false := by
  cases c with
  | register a => rfl
  | _ => cases h

theorem after_concat (calls : List Call) (c : Call) :
    after (calls ++ [c]) = (after calls).call c := List.foldl_concat _ _ _ _

theorem since_concat (name : String) (calls : List Call) (c : Call) :
    since name (calls ++ [c]) = if c.removes name then [] else since name calls ++ [c] := by
  rw [since, List.rtakeWhile_concat]
  cases c.removes name <;> rfl

theorem latest?_concat (name : String) (calls : List Call) (c : Call) :
    latest? name (calls ++ [c]) =
      if c.removes name then none else (c.enrols? name).or (latest? name calls) := by
  rw [latest?, since_concat]
  cases c.removes name with
  | true => rfl
  | false =>
    rw [if_neg Bool.false_ne_true, if_neg Bool.false_ne_true, List.reverse_concat,
      List.findSome?_cons, latest?]
    cases c.enrols? name <;> rfl

theorem lastSwitch?_append (name : String) (calls more : List Call) :
    lastSwitch? name (calls ++ more) = (lastSwitch? name more).or (lastSwitch? name calls) := by
  rw [lastSwitch?, List.reverse_append, List.findSome?_append]
  rfl

/-- A name has an analyzer if and only if some call registered one since the name was unregistered. -/
theorem latest?_ne_none_iff : latest? name calls ≠ none ↔
    (since name calls).findIdx (fun c => (c.enrols? name).isSome) < (since name calls).length := by
  rw [latest?, Ne, List.findSome?_eq_none_iff, List.findIdx_lt_length]
  push Not
  simp only [List.mem_reverse, Option.isSome_iff_ne_none]

theorem length_since_le (name : String) (calls : List Call) :
    (since name calls).length ≤ calls.length := (List.rtakeWhile_suffix _ calls).length_le

theorem place_lt (h : latest? name calls ≠ none) : place name calls < calls.length := by
  have hfound := latest?_ne_none_iff.mp h
  have hle := length_since_le name calls
  rw [place]
  omega

/-- A name that has an analyzer keeps its place unless it is unregistered. -/
theorem place_concat_of_enrolled (h : latest? name calls ≠ none) (hc : c.removes name = false) :
    place name (calls ++ [c]) = place name calls := by
  have hfound := latest?_ne_none_iff.mp h
  have hle := length_since_le name calls
  -- the call that counts is found among the earlier ones, and both lengths grow by one
  rw [place, place, since_concat, hc, if_neg Bool.false_ne_true, List.findIdx_append, if_pos hfound,
    List.length_append, List.length_append, Nat.add_sub_add_right]

/-- A name that has none is given one at the end. -/
theorem place_concat_of_new (h : latest? name calls = none) (hc : (c.enrols? name).isSome = true) :
    place name (calls ++ [c]) = calls.length := by
  have hremoves := c.removes_of_enrols? hc name
  have hfound : ¬ (since name calls).findIdx (fun c => (c.enrols? name).isSome) <
      (since name calls).length := fun hlt => latest?_ne_none_iff.mpr hlt h
  have hle := length_since_le name calls
  -- no earlier call counts, so the search goes on to the new one
  rw [place, since_concat, hremoves, if_neg Bool.false_ne_true, List.findIdx_append, if_neg hfound,
    List.findIdx_singleton, hc, if_pos rfl, List.length_append, List.length_append]
  omega

end

section

variable {r : Registry} {calls : List Call}

theorem register_eq (r : Registry) (a : Analyzer) : r.register a =
    if a.supported = [] then .error (noRules a.name)
    else .ok { r with analyzers := r.analyzers.put a.name a } := by
  rw [register]
  simp only [List.isEmpty_iff]

theorem call_register (r : Registry) (a : Analyzer) : r.call (.register a) =
    if a.supported = [] then r else { r with analyzers := r.analyzers.put a.name a } := by
  rw [call, register_eq]
  by_cases h : a.supported = []
  · rw [if_pos h, if_pos h]
    rfl
  · rw [if_neg h, if_neg h]
    rfl

theorem get?_call (r : Registry) (c : Call) (name : String) : (r.call c).get? name =
    if c.removes name then none else (c.enrols? name).or (r.get? name) := by
  cases c with
  | register a =>
    change _ = (if a.name = name ∧ a.supported ≠ [] then some a else none).or (r.get? name)
    rw [call_register]
    by_cases hrules : a.supported = []
    · rw [if_pos hrules, if_neg fun h => h.2 hrules]
      rfl
    · rw [if_neg hrules, get?, Listing.get?_put]
      by_cases hname : a.name = name
      · rw [if_pos hname, if_pos ⟨hname, hrules⟩]
        rfl
      · rw [if_neg hname, if_neg fun h => hname h.1]
        rfl
  | unregister name' =>
    rw [call, get?, unregister, Listing.get?_remove]
    by_cases h : name' = name <;> simp [Call.removes, Call.enrols?, get?, h]
  | disable name' => rfl
  | enable name' => rfl

/-- A name is off after a call that switches it off, and after one that does not switch it if it was
off before. -/
theorem mem_disabled_call (r : Registry) (c : Call) (name : String) :
    name ∈ (r.call c).disabled ↔
      c.switches? name = some false ∨ c.switches? name = none ∧ name ∈ r.disabled := by
  cases c with
  | register a =>
    have hsame : (r.call (.register a)).disabled = r.disabled := by
      rw [call_register, apply_ite disabled, ite_self]
    simp [hsame, Call.switches?]
  | unregister name' => simp [call, unregister, Call.switches?]
  | disable name' =>
    rw [call, disable, List.mem_cons]
    by_cases h : name' = name
    · simp [Call.switches?, h]
    · simp [Call.switches?, h, Ne.symm h]
  | enable name' =>
    rw [call, enable, List.mem_filter]
    by_cases h : name' = name
    · simp [Call.switches?, h]
    · simp [Call.switches?, h, Ne.symm h]

/-- After a call the names that it does not remove stand as before, and a new one may stand behind
them. -/
theorem keys_call (r : Registry) (c : Call) :
    (r.call c).analyzers.keys = r.analyzers.keys.filter (fun name => !c.removes name) ∨
      ∃ name, name ∉ r.analyzers.keys ∧ (c.enrols? name).isSome = true ∧
        (r.call c).analyzers.keys = r.analyzers.keys ++ [name] := by
  cases c with
  | register a =>
    have hall : r.analyzers.keys.filter (fun name => !Call.removes name (.register a)) =
        r.analyzers.keys := List.filter_true _
    rw [call_register, hall]
    by_cases hrules : a.supported = []
    · rw [if_pos hrules]
      exact Or.inl rfl
    · rw [if_neg hrules, Listing.keys_put]
      by_cases hname : a.name ∈ r.analyzers.keys
      · rw [if_pos hname]
        exact Or.inl rfl
      · rw [if_neg hname]
        exact Or.inr ⟨a.name, hname, by simp [Call.enrols?, hrules], rfl⟩
  | unregister name' =>
    left
    rw [call, unregister, Listing.keys_remove]
    apply List.filter_congr
    intro name _
    simp [Call.removes, eq_comm]
  | disable name' => exact Or.inl (List.filter_true _).symm
  | enable name' => exact Or.inl (List.filter_true _).symm

/-- The registry is the one that the calls lead to: under each name stands the analyzer registered last,
the names stand in the order of their places, and those are off that were switched off last. -/
structure Follows (r : Registry) (calls : List Call) : Prop where
  latest : ∀ name, r.get? name = latest? name calls
  ordered : r.analyzers.keys.Pairwise fun name name' => place name calls < place name' calls
  off : ∀ name, name ∈ r.disabled ↔ lastSwitch? name calls = some false

theorem Follows.mem_keys_iff (h : r.Follows calls) (name : String) :
    name ∈ r.analyzers.keys ↔ latest? name calls ≠ none := by
  rw [← h.latest, get?, Ne, Listing.get?_eq_none_iff, not_not]

/-- The order of places is kept: what stays keeps its place, and what is new comes behind it. -/
theorem Follows.ordered_call (h : r.Follows calls) (c : Call) :
    (r.call c).analyzers.keys.Pairwise fun name name' =>
      place name (calls ++ [c]) < place name' (calls ++ [c]) := by
  have hkept : ∀ name ∈ r.analyzers.keys, c.removes name = false →
      place name (calls ++ [c]) = place name calls := fun name hname =>
    place_concat_of_enrolled ((h.mem_keys_iff name).mp hname)
  rcases keys_call r c with hkeys | ⟨new, hnew, henrols, hkeys⟩
  · -- names may go, and the others keep their places
    rw [hkeys]
    refine (h.ordered.filter _).imp_of_mem ?_
    intro name name' hname hname' hlt
    rw [List.mem_filter, Bool.not_eq_true'] at hname hname'
    rwa [hkept name hname.1 hname.2, hkept name' hname'.1 hname'.2]
  · -- the new name gets the place of the call itself, which is behind all earlier places
    have hremoves := c.removes_of_enrols? henrols
    have hlast : place new (calls ++ [c]) = calls.length := by
      refine place_concat_of_new ?_ henrols
      rw [h.mem_keys_iff, not_not] at hnew
      exact hnew
    rw [hkeys, List.pairwise_append]
    refine ⟨?_, List.pairwise_singleton _ _, ?_⟩
    · refine h.ordered.imp_of_mem ?_
      intro name name' hname hname' hlt
      rwa [hkept name hname (hremoves name), hkept name' hname' (hremoves name')]
    · intro name hname name' hname'
      rw [List.mem_singleton.mp hname', hlast, hkept name hname (hremoves name)]
      exact place_lt ((h.mem_keys_iff name).mp hname)

theorem Follows.call (h : r.Follows calls) (c : Call) : (r.call c).Follows (calls ++ [c]) := by
  refine ⟨?_, h.ordered_call c, ?_⟩
  · intro name
    rw [get?_call, latest?_concat, h.latest]
  · intro name
    have hswitch : lastSwitch? name [c] = c.switches? name := by
      cases hc : c.switches? name <;> simp [lastSwitch?, hc]
    rw [mem_disabled_call, lastSwitch?_append, hswitch]
    cases c.switches? name <;> simp [h.off]

theorem follows_after (calls : List Call) : (after calls).Follows calls := by
  -- from the right, as a call is told by what came before it
  induction calls using List.reverseRecOn with
  | nil =>
    refine ⟨fun _ => rfl, List.Pairwise.nil, ?_⟩
    intro name
    exact iff_of_false List.not_mem_nil nofun
  | append_singleton calls c ih =>
    rw [after_concat]
    exact ih.call c

theorem Reachable.call (h : r.Reachable) (c : Call) : (r.call c).Reachable := by
  cases c with
  | register a =>
    cases hdone : r.register a with
    | ok r' =>
      rw [Registry.call, hdone]
      exact .register h hdone
    | error message =>
      rw [Registry.call, hdone]
      exact h
  | unregister name => exact .unregister h name
  | disable name => exact .disable h name
  | enable name => exact .enable h name

theorem reachable_after (calls : List Call) : (after calls).Reachable := by
  induction calls using List.reverseRecOn with
  | nil => exact .empty
  | append_singleton calls c ih =>
    rw [after_concat]
    exact ih.call c

/-- Registering an analyzer under a name that has one gives the name another analyzer in its place. -/
theorem map_name_enabled_replace (h : r.Reachable) {a : Analyzer} (hrules : a.supported ≠ [])
    (hname : a.name ∈ r.analyzers.keys) :
    (r.call (.register a)).enabled.map (·.name) = r.enabled.map (·.name) := by
  have hkeys (r : Registry) : Listing.keys (r.analyzers.filter fun e => !r.disabled.contains e.1) =
      r.analyzers.keys.filter fun name => !r.disabled.contains name :=
    Listing.keys_filter (fun name => !r.disabled.contains name) r.analyzers
  rw [(h.call _).keyed.map_enabled, h.keyed.map_enabled, hkeys, hkeys, call_register, if_neg hrules,
    Listing.keys_put, if_pos hname]

end

/-- After any calls the analyzers that are on are those that were registered last under their names, of
names that were not unregistered since then and were not last switched off, in the order in which the
names were first registered since they were unregistered last. Registering fails for an analyzer without
rules only, and then changes nothing; a name that is switched off stays off whatever is registered or
unregistered, and an analyzer that replaces another takes its place. -/
theorem enabled_after (calls : List Call) :
    (∀ a, a ∈ (after calls).enabled ↔
      latest? a.name calls = some a ∧ lastSwitch? a.name calls ≠ some false) ∧
    ((after calls).enabled.Pairwise fun a b => place a.name calls < place b.name calls) ∧
    (∀ a, (∀ message, (after calls).register a = .error message ↔
        a.supported = [] ∧ message = noRules a.name) ∧
      (a.supported = [] → after (calls ++ [.register a]) = after calls)) ∧
    (∀ name more, lastSwitch? name calls = some false → (∀ c ∈ more, c.switches? name = none) →
      ∀ a ∈ (after (calls ++ more)).enabled, a.name ≠ name) ∧
    ∀ a, a.supported ≠ [] → latest? a.name calls ≠ none →
      (after (calls ++ [.register a])).enabled.map (·.name) = (after calls).enabled.map (·.name) := by
  have hmem (calls : List Call) (a : Analyzer) : a ∈ (after calls).enabled ↔
      latest? a.name calls = some a ∧ lastSwitch? a.name calls ≠ some false := by
    have hfollows := follows_after calls
    rw [(reachable_after calls).keyed.mem_enabled_iff, hfollows.latest, hfollows.off]
  refine ⟨hmem calls, ?_, ?_, ?_, ?_⟩
  · have hnames : ((after calls).enabled.map (·.name)).Pairwise fun name name' =>
        place name calls < place name' calls := by
      rw [(reachable_after calls).keyed.map_enabled]
      exact (follows_after calls).ordered.sublist (List.filter_sublist.map _)
    rwa [List.pairwise_map] at hnames
  · intro a
    rw [after_concat, call_register, register_eq]
    by_cases hrules : a.supported = []
    · simp [hrules, eq_comm]
    · simp [hrules]
  · intro name more hoff hmore a ha hname
    refine ((hmem (calls ++ more) a).mp ha).2 ?_
    have hnone : lastSwitch? name more = none := by
      rw [lastSwitch?, List.findSome?_eq_none_iff]
      exact fun c hc => hmore c (List.mem_reverse.mp hc)
    rw [hname, lastSwitch?_append, hnone, Option.none_or, hoff]
  · intro a hrules hname
    rw [after_concat]
    exact map_name_enabled_replace (reachable_after calls) hrules
      (((follows_after calls).mem_keys_iff _).mpr hname)

-- a name that is registered again after it was unregistered goes to the end
example : ((after [.register EventOrder.analyzer, .register Linter.strayAnalyzer,
    .unregister EventOrder.analyzer.name, .register EventOrder.analyzer]).enabled.map (·.name)) =
      ["Stray", EventOrder.analyzer.name] := rfl

end TierHost.Registry
