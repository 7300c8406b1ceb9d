import TierHost.Proofs.Symbols.Built
import TierHost.Proofs.Symbols.Fingerprint
import TierHost.Proofs.Tier.Cache
import TierHost.Proofs.Tier.Outcome

/-!
Runs that share a cache. As long as no two of the texts that are hashed collide, an outcome that was
stored is the outcome of every later run that finds it.
-/

namespace TierHost

/-- The ways in which a referenced assembly comes about. -/
inductive Assembly.Sourced (a : Assembly) : Prop
  | loaded (text : String) (h : Assembly.load text = .ok a)
  | referenced (text : String) (c : Compilation) (h : Compilation.load text = .ok c)
      (mem : a ∈ c.references)
  | built (name : String) (types : List String) (h : buildAssembly name types = .ok a)

theorem Assembly.Sourced.placed {a : Assembly} (h : a.Sourced) : a.Placed := by
  cases h with
  | loaded text h => exact (Assembly.load_eq_ok h).1
  | referenced text c h mem => exact (Compilation.load_eq_ok h).1 a mem
  | built name types h => exact buildAssembly_eq_ok h

/-- Placed compilations with names of one line are told by the text of their outlines, up to a
missing name. -/
theorem Compilation.OneLined.eq_of_outlineText {c d : Compilation} (hc : c.OneLined)
    (hd : d.OneLined) (hpc : c.Placed) (hpd : d.Placed) (h : c.outlineText = d.outlineText) :
    c.name.getD "" = d.name.getD "" ∧ c.references = d.references :=
  hc.unforged.eq_of_outlineText hd.unforged hpc hpd h

namespace Generator

/-- A run that a host asks for. -/
structure Call where
  config : Config
  compilation : Compilation
  session : Session

namespace Call

/-- The call as a run of its own, without a cache. -/
def alone (call : Call) : Except RunError (List Source) :=
  ((run call.config call.compilation).runIn call.session).1

/-- The call as a run with a cache: its outcome, and the cache after it. -/
def shared (cache : RunCache) (call : Call) : Except RunError (List Source) × RunCache :=
  ((runCached call.config call.compilation cache).run call.session).1

/-- The call looks its compilation up: the name of the compilation has a link. -/
def Hashes (call : Call) : Prop :=
  ∃ chain, Chain.standing call.config (call.compilation.name.getD "") = .link chain

/-- What a host may ask for: nobody cancels, and the compilation is made of assemblies that were
read or built and has names of one line. -/
structure Proper (call : Call) : Prop where
  quiet : call.session.Quiet
  sourced : ∀ a ∈ call.compilation.references, a.Sourced
  oneLined : call.compilation.OneLined

end Call

/-- Calls one after another with one cache: their outcomes, and the cache after them. -/
def runShared : RunCache → List Call → List (Except RunError (List Source)) × RunCache
  | cache, [] => ([], cache)
  | cache, call :: calls =>
    let (outcome, cache) := call.shared cache
    let (outcomes, cache) := runShared cache calls
    (outcome :: outcomes, cache)

/-- No two different outlines among those that the calls hash have the same fingerprint. -/
def NoCollision (calls : List Call) : Prop :=
  ∀ x ∈ calls, ∀ y ∈ calls, x.Hashes → y.Hashes →
    x.compilation.fingerprint = y.compilation.fingerprint →
    x.compilation.outlineText = y.compilation.outlineText

/-- The sources are those of one of the calls, whose fingerprint and configuration are the key. -/
def FromCall (calls : List Call) (key : RunKey) (sources : List Source) : Prop :=
  ∃ call ∈ calls, call.Hashes ∧ key = (call.compilation.fingerprint, call.config) ∧
    outcome call.config call.compilation = .ok sources

theorem alone_eq_outcome {call : Call} (h : call.session.Quiet) :
    call.alone = outcome call.config call.compilation :=
  (polls_run call.config call.compilation).runIn_quiet h

theorem outcome_congr (config : Config) {c d : Compilation} (hn : c.name.getD "" = d.name.getD "")
    (hr : c.references = d.references) : outcome config c = outcome config d := by
  have hproduced (chain : Chain) : produced config chain c = produced config chain d := by
    simp only [produced, candidateNames, Compilation.reference?, hr]
  simp only [outcome, hn, hproduced]

/-- Sources that came from a call are those of every call that has the same key. -/
theorem FromCall.outcome_eq {calls : List Call} (hp : ∀ call ∈ calls, call.Proper)
    (hn : NoCollision calls) {call : Call} (hc : call ∈ calls) (hh : call.Hashes)
    {sources : List Source}
    (h : FromCall calls (call.compilation.fingerprint, call.config) sources) :
    outcome call.config call.compilation = .ok sources := by
  obtain ⟨call', hc', hh', hkey, hout⟩ := h
  obtain ⟨hprint, hconfig⟩ := Prod.mk.inj hkey
  have htext := hn call hc call' hc' hh hh' hprint
  have hplaced (x : Call) (hx : x ∈ calls) : x.compilation.Placed :=
    fun a ha => ((hp x hx).sourced a ha).placed
  obtain ⟨hname, hrefs⟩ := (hp call hc).oneLined.eq_of_outlineText (hp call' hc').oneLined
    (hplaced call hc) (hplaced call' hc') htext
  rw [outcome_congr call.config hname hrefs, hconfig, hout]

section

variable {config : Config} {chain : Chain} {c : Compilation} {cache cache₁ cache₂ : RunCache}
  {s s₁ : Session} {sources : List Source}

theorem runLinked_hit (chain : Chain) (s : Session)
    (h : cache.get (c.fingerprint, config) = (some sources, cache₁)) :
    ∃ s₁, (runLinked config chain c cache).run s = ((.ok sources, cache₁), s₁) := by
  unfold runLinked
  dsimp only
  rw [h]
  exact ⟨_, rfl⟩

theorem runLinked_error {e : RunError} (h : cache.get (c.fingerprint, config) = (none, cache₁))
    (hrun : (produce config chain c).runIn s = (.error e, s₁)) :
    (runLinked config chain c cache).run s = ((.error e, cache₁), s₁) := by
  unfold runLinked
  dsimp only
  rw [h]
  dsimp only
  rw [StateT.run_bind]
  have hr : (ExceptT.run (produce config chain c)).run s = (.error e, s₁) := hrun
  rw [hr]
  rfl

theorem runLinked_ok {u : Unit} (h : cache.get (c.fingerprint, config) = (none, cache₁))
    (hrun : (produce config chain c).runIn s = (.ok sources, s₁))
    (hput : cache₁.put (c.fingerprint, config) (some sources) = (.ok u, cache₂)) :
    ∃ s₂, (runLinked config chain c cache).run s = ((.ok sources, cache₂), s₂) := by
  unfold runLinked
  dsimp only
  rw [h]
  dsimp only
  rw [StateT.run_bind]
  have hr : (ExceptT.run (produce config chain c)).run s = (pure (.ok sources, s₁) : Id _) := hrun
  rw [hr, pure_bind]
  dsimp only
  rw [hput]
  exact ⟨_, rfl⟩

end

variable {calls : List Call} {cache : RunCache}

/-- With a cache that holds only what came from the calls, a run that has a link ends as it would
without the cache, and the cache keeps holding only that. -/
theorem runLinked_eq_outcome (hp : ∀ call ∈ calls, call.Proper) (hn : NoCollision calls)
    {call : Call} (hc : call ∈ calls) {chain : Chain}
    (hl : Chain.standing call.config (call.compilation.name.getD "") = .link chain)
    (hcache : cache.Holds (FromCall calls)) {s : Session} (hs : s.Quiet) :
    ∃ cache' s', (runLinked call.config chain call.compilation cache).run s =
      ((outcome call.config call.compilation, cache'), s') ∧ cache'.Holds (FromCall calls) := by
  have hh : call.Hashes := ⟨chain, hl⟩
  have hout : outcome call.config call.compilation =
      produced call.config chain call.compilation := by
    rw [outcome, linkOf, hl]
  obtain ⟨hget, hheld⟩ := hcache.get (k := (call.compilation.fingerprint, call.config))
  obtain ⟨⟨found, cache₁⟩, hfound⟩ :
      ∃ r, cache.get (call.compilation.fingerprint, call.config) = r := ⟨_, rfl⟩
  rw [hfound] at hget hheld
  cases found with
  | some sources =>
    -- what was stored came from a call with the same compilation, as far as runs can tell
    obtain ⟨s₁, hrun⟩ := runLinked_hit chain s hfound
    rw [FromCall.outcome_eq hp hn hc hh (hget sources rfl)]
    exact ⟨cache₁, s₁, hrun, hheld⟩
  | none =>
    obtain ⟨s₁, hproduce, -⟩ :=
      (polls_produce call.config chain call.compilation).exists_runIn hs
    rw [← hout] at hproduce
    cases ho : outcome call.config call.compilation with
    | error e =>
      rw [ho] at hproduce
      exact ⟨cache₁, s₁, runLinked_error hfound hproduce, hheld⟩
    | ok sources =>
      rw [ho] at hproduce
      obtain ⟨hput, hheld⟩ := hheld.put (k := (call.compilation.fingerprint, call.config))
        (v := sources) ⟨call, hc, hh, rfl, ho⟩
      obtain ⟨s₂, hrun⟩ := runLinked_ok hfound hproduce (Prod.ext hput rfl)
      exact ⟨_, s₂, hrun, hheld⟩

theorem shared_eq_outcome (hp : ∀ call ∈ calls, call.Proper) (hn : NoCollision calls)
    {call : Call} (hc : call ∈ calls) (hcache : cache.Holds (FromCall calls)) :
    (call.shared cache).1 = outcome call.config call.compilation ∧
      (call.shared cache).2.Holds (FromCall calls) := by
  obtain ⟨s₁, hresolve, hs₁⟩ :=
    (polls_resolve call.config call.compilation.name).exists_runIn (hp call hc).quiet
  have hrun : (ExceptT.run (resolve call.config call.compilation.name)).run call.session =
      (pure (linkOf call.config (call.compilation.name.getD ""), s₁) : Id _) := hresolve
  unfold Call.shared
  rw [runCached, StateT.run_bind, hrun, pure_bind]
  cases hl : linkOf call.config (call.compilation.name.getD "") with
  | error e =>
    refine ⟨?_, hcache⟩
    rw [outcome, hl]
    rfl
  | ok link =>
    cases link with
    | none =>
      refine ⟨?_, hcache⟩
      rw [outcome, hl]
      rfl
    | some chain =>
      have hstanding : Chain.standing call.config (call.compilation.name.getD "") = .link chain :=
        linkOf_eq_link_iff.mp hl
      obtain ⟨cache', s', hlinked, hheld⟩ := runLinked_eq_outcome hp hn hc hstanding hcache hs₁
      dsimp only
      rw [hlinked]
      exact ⟨rfl, hheld⟩

theorem runShared_eq_outcomes (hp : ∀ call ∈ calls, call.Proper) (hn : NoCollision calls)
    (todo : List Call) (htodo : ∀ call ∈ todo, call ∈ calls)
    (hcache : cache.Holds (FromCall calls)) :
    (runShared cache todo).1 = todo.map fun call => outcome call.config call.compilation := by
  -- the invariant of the cache is about all the calls, not only those that are still to come
  induction todo generalizing cache with
  | nil => rfl
  | cons call todo ih =>
    obtain ⟨hcall, hheld⟩ := shared_eq_outcome hp hn (htodo call List.mem_cons_self) hcache
    have hrest := ih (fun x hx => htodo x (List.mem_cons_of_mem call hx)) hheld
    rw [runShared, List.map_cons]
    exact congrArg₂ List.cons hcall hrest

/-- A shared cache cannot be noticed: whatever calls come one after another, and whatever is found,
stored and forgotten in between, each ends as it does without a cache. -/
theorem runShared_transparent (capacity : Int) (hcap : 0 ≤ capacity) (calls : List Call)
    (hp : ∀ call ∈ calls, call.Proper) (hn : NoCollision calls) :
    (runShared (.empty capacity) calls).1 = calls.map Call.alone := by
  rw [runShared_eq_outcomes hp hn calls (fun _ h => h) (Cache.holds_empty hcap)]
  exact List.map_congr_left fun call hc => (alone_eq_outcome (hp call hc).quiet).symm

/-- A compilation of the baseline whose root assembly exports one test class. -/
def exporting (type : String) : Compilation :=
  ⟨some "P.T.C7", [⟨"P.T", ⟨"", "", [.space "N" "" [.type ⟨type, "N", "", []⟩]]⟩⟩]⟩

/-- Calls that find what was stored, displace it, and compute it again. -/
def alternating : List Call :=
  let config := { Config.default with product := "P", segment := "T", language := "C" }
  ["FooUnitTests", "FooUnitTests", "BarUnitTests", "FooUnitTests"].map fun type =>
    ⟨config, exporting type, .start none⟩

theorem alternating_proper : ∀ call ∈ alternating, call.Proper := by
  have hproper (config : Config) (type : String) (hb : buildAssembly "P.T" ["N." ++ type] =
      .ok ⟨"P.T", ⟨"", "", [.space "N" "" [.type ⟨type, "N", "", []⟩]]⟩⟩)
      (hs : ∀ a ∈ (exporting type).references, ∀ e ∈ a.preorder, '\n' ∉ e.2.name.toList) :
      Call.Proper ⟨config, exporting type, .start none⟩ := by
    refine ⟨?_, ?_, ⟨?_, ?_, hs⟩⟩
    · intro t ht
      cases ht
    · intro a ha
      obtain rfl := List.mem_singleton.mp ha
      exact .built _ _ hb
    · show '\n' ∉ "P.T.C7".toList
      decide
    · intro a ha
      obtain rfl := List.mem_singleton.mp ha
      show '\n' ∉ "P.T".toList
      decide
  have hfoo (config : Config) := hproper config "FooUnitTests" rfl (by decide +kernel)
  have hbar (config : Config) := hproper config "BarUnitTests" rfl (by decide +kernel)
  simp only [alternating, List.map_cons, List.map_nil, List.forall_mem_cons, List.not_mem_nil,
    false_implies, implies_true, and_true]
  exact ⟨hfoo _, hfoo _, hbar _, hfoo _⟩

theorem alternating_noCollision : NoCollision alternating := by
  have hne : (exporting "FooUnitTests").fingerprint ≠ (exporting "BarUnitTests").fingerprint := by
    decide +kernel
  intro x hx y hy _ _ h
  simp only [alternating, List.map_cons, List.map_nil, List.mem_cons, List.not_mem_nil,
    or_false] at hx hy
  rcases hx with rfl | rfl | rfl | rfl <;> rcases hy with rfl | rfl | rfl | rfl <;>
    first | rfl | exact absurd h hne | exact absurd h hne.symm

theorem runShared_transparent_alternating :
    (∀ call ∈ alternating, call.Proper) ∧ NoCollision alternating ∧
      (runShared (.empty 1) alternating).1 = alternating.map Call.alone :=
  ⟨alternating_proper, alternating_noCollision,
    runShared_transparent 1 (by decide) alternating alternating_proper alternating_noCollision⟩

end Generator

end TierHost
