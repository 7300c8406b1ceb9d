import TierHost.Proofs.Tier.Cache
import TierHost.Proofs.Tier.Mirror
import TierHost.Proofs.Tier.Outcome
import Mathlib.Data.Set.Card

/-!
Cancelled runs. A run polls its token a number of times that the compilation and the cache determine;
it is cancelled exactly when the token signals within these polls, and then, as with every failure,
what the host keeps stays as it was.
-/

namespace TierHost

mutual

/-- The namespaces of a member: itself, if it is one, and those below it. -/
def Member.spaceCount : Member → Nat
  | .space _ _ members => 1 + Member.spaceCountList members
  | .type _ => 0

def Member.spaceCountList : List Member → Nat
  | [] => 0
  | m :: ms => m.spaceCount + Member.spaceCountList ms

end

/-- The namespaces of an assembly, the global one included. -/
def Assembly.spaceCount (a : Assembly) : Nat := a.root.toMember.spaceCount

theorem Token.pollFor_limit {t : Token} {limit : Nat} (hr : t.requested = false)
    (hl : t.limit = some limit) (hp : t.polls ≤ limit) (n : Nat) :
    (t.pollFor n).2 = decide (t.polls + n ≤ limit) ∧
      (t.pollFor n).1.polls = min (limit + 1) (t.polls + n) := by
  induction n generalizing t with
  | zero => simp [pollFor, hp]; omega
  | succ n ih =>
    have hrequested : t.poll.requested = decide (limit < t.polls + 1) := by
      simp [Token.poll, hr, hl]
    rw [pollFor, hrequested]
    by_cases hlast : limit < t.polls + 1
    · rw [if_pos (decide_eq_true hlast)]
      refine ⟨?_, ?_⟩
      · simp; omega
      · show t.polls + 1 = _
        omega
    · rw [if_neg (by simpa using hlast)]
      have hpolls : t.poll.polls = t.polls + 1 := rfl
      have hnext := ih (t := t.poll) (by rw [hrequested]; simpa using hlast) hl (by omega)
      rw [hpolls, Nat.add_right_comm, Nat.add_assoc] at hnext
      exact hnext

theorem Member.spaceCountList_eq (ms : List Member) :
    Member.spaceCountList ms = (ms.map Member.spaceCount).sum := by
  induction ms with
  | nil => rfl
  | cons m ms ih => rw [Member.spaceCountList, ih, List.map_cons, List.sum_cons]

/-- The search enters every namespace once. -/
theorem Naming.count_enter_memberSteps (n : Naming) (global : Bool) (m : Member) :
    (n.memberSteps global m).count .enter = m.spaceCount := by
  induction m using Member.induction generalizing global with
  | space name parent members ih =>
    have hmembers : members.map (List.count .enter ∘ n.memberSteps name.isEmpty) =
        members.map Member.spaceCount :=
      List.map_congr_left fun m hm => ih m hm name.isEmpty
    rw [memberSteps, List.count_cons_self, memberStepsList_eq, List.count_flatMap, hmembers,
      Member.spaceCount, Member.spaceCountList_eq, Nat.add_comm]
  | type t =>
    have hstep : Naming.Step.enter ∉ n.typeStep global t := by
      unfold typeStep
      cases global with
      | true => simp
      | false => by_cases ha : n.accepts t.name = true <;> simp [ha]
    exact List.count_eq_zero.mpr hstep

namespace Work

theorem tried_eq_length {ε α β : Type} {g : α → Except ε β} {as : List α} {bs : List β}
    (h : as.mapM g = .ok bs) : tried g as = as.length := by
  induction mapM_eq_ok_iff.mp h with
  | nil => rfl
  | cons ha has ih => rw [tried, ha, List.length_cons, ih (mapM_eq_ok_iff.mpr has)]

end Work

/-- What a host has stored under a key, if it keeps a cache. -/
def Host.stored? (h : Host) (key : RunKey) : Option (List Source) :=
  h.cache.bind fun cache => (cache.entries.get? key).join

/-- A host keeps what it has: the cache its entries in their order, and the output all of it. -/
structure Host.Keeps (h h' : Host) : Prop where
  entries : h'.cache.map Cache.entries = h.cache.map Cache.entries
  output : h'.output = h.output

namespace Generator

open Work

/-- The polls that a run makes when nobody cancels: one if the name has no link or the outcome is
stored, one more if the tier below is not referenced, and otherwise one more for each namespace of
its assembly and each candidate. -/
noncomputable def pollCount (h : Host) (config : Config) (c : Compilation) : Nat :=
  match Chain.standing config (c.name.getD "") with
  | .link chain =>
    if (h.stored? (c.fingerprint, config)).isSome then 1
    else match c.reference? chain.previousAssembly with
      | none => 2
      | some previous =>
        2 + previous.spaceCount + Set.ncard {name | Qualifies config chain c name}
  | _ => 1

variable {config : Config} {c : Compilation} {h : Host} {chain : Chain}

/-- Every candidate of a placed compilation is tried, since none of them fails. -/
theorem exists_produced (hc : config.Usable)
    (hl : Chain.standing config (c.name.getD "") = .link chain) (hp : c.Placed) :
    (∃ sources, produced config chain c = .ok sources) ∧
      tried (sourceOf config chain) (candidateNames config chain c) =
        Set.ncard {name | Qualifies config chain c name} := by
  have hsource : ∀ d ∈ candidateNames config chain c, ∃ src, sourceOf config chain d = .ok src := by
    intro d hd
    obtain ⟨rest, rfl, hrest⟩ := ((mem_candidateNames hc hl).mp hd).marked hc hl hp
    have hpoint : '.' ∈ (globalMark ++ rest).toList := by
      rw [String.toList_append]
      exact List.mem_append_right _ hrest
    obtain ⟨s, hs⟩ := Rename.exists_spec hc hl hpoint
    exact ⟨Source.ofSpec config s, by rw [sourceOf, hs]⟩
  obtain ⟨sources, hok⟩ := exists_mapM_ok hsource
  have hset : {name | Qualifies config chain c name} =
      ((candidateNames config chain c).toFinset : Set String) := by
    ext d
    rw [Finset.mem_coe, List.mem_toFinset]
    exact (mem_candidateNames hc hl).symm
  have hnodup : (candidateNames config chain c).Nodup := pairwise_candidateNames.imp ne_of_lt
  refine ⟨⟨sources, hok⟩, ?_⟩
  rw [tried_eq_length hok, hset, Set.ncard_coe_finset, List.toFinset_card_of_nodup hnodup]

/-- The polls of a run that finds nothing stored, counted on the compilation. -/
theorem runPolls_eq (hc : config.Usable) (hp : c.Placed)
    (hstored : h.stored? (c.fingerprint, config) = none) :
    runPolls config c = pollCount h config c := by
  unfold runPolls linkOf pollCount
  rw [hstored]
  cases hl : Chain.standing config (c.name.getD "") with
  | notVersioned => rfl
  | tooLong digits => rfl
  | belowBaseline => rfl
  | link chain =>
    obtain ⟨-, htried⟩ := exists_produced hc hl hp
    have hnames : c.reference? chain.previousAssembly = none →
        candidateNames config chain c = [] := by
      intro hr
      rw [candidateNames, hr]
    dsimp only [Option.isSome_none]
    rw [if_neg (by decide), producePolls, candidatePolls]
    cases hr : c.reference? chain.previousAssembly with
    | none =>
      rw [hnames hr]
      rfl
    | some previous =>
      have hsteps (n : Naming) :
          (n.steps (.assembly previous)).count .enter = previous.spaceCount :=
        n.count_enter_memberSteps false previous.root.toMember
      dsimp only
      rw [htried, hsteps]
      omega

/-- A cancelled run with a cache leaves the entries of the cache as they were. -/
def CutShort (cache : RunCache) (r : Except RunError (List Source) × RunCache) : Prop :=
  r.1 = .error .canceled ∧ r.2.entries = cache.entries

theorem pollsTo_runLinked_hit {cache : RunCache} {sources : List Source} (chain : Chain)
    (hstored : (cache.entries.get? (c.fingerprint, config)).join = some sources) :
    ∃ cache', PollsTo (CutShort cache) (runLinked config chain c cache) 0 (.ok sources, cache') := by
  rw [← Cache.get_fst] at hstored
  unfold runLinked
  dsimp only
  obtain ⟨⟨found, cache'⟩, hget⟩ : ∃ r, cache.get (c.fingerprint, config) = r := ⟨_, rfl⟩
  rw [hget] at hstored ⊢
  obtain rfl : found = some sources := hstored
  have hfound : Polls .canceled
      (record (.cacheHit chain.currentAssembly) >>= fun _ => pure sources : Work RunError _) 0
      (.ok sources) := (polls_pure sources).after_record _
  refine ⟨cache', (hfound.pollsTo.of_no_polls fun _ => False).bind (n := 0) (pollsTo_pure _ _) ?_⟩
  intro r hr
  exact hr.elim

/-- A run that finds nothing stored computes its outcome and stores it, unless it is cancelled. -/
theorem pollsTo_runLinked_miss {cache : RunCache} {sources : List Source}
    (hroom : 0 ≤ cache.capacity)
    (hstored : (cache.entries.get? (c.fingerprint, config)).join = none)
    (hok : produced config chain c = .ok sources) :
    ∃ cache', PollsTo (CutShort cache) (runLinked config chain c cache)
      (producePolls config chain c) (.ok sources, cache') := by
  let missed : RunCache := { cache with misses := cache.misses + 1 }
  have hholds : missed.Holds fun _ _ => True := ⟨hroom, fun _ _ _ => trivial⟩
  obtain ⟨hput, -⟩ := hholds.put (k := (c.fingerprint, config)) (v := sources) trivial
  obtain ⟨⟨kept, cache'⟩, hkept⟩ :
      ∃ r, missed.put (c.fingerprint, config) (some sources) = r := ⟨_, rfl⟩
  rw [hkept] at hput
  obtain rfl : kept = .ok () := hput
  have hproduce := polls_produce config chain c
  rw [hok] at hproduce
  unfold runLinked
  dsimp only
  rw [Cache.get_of_miss hstored]
  refine ⟨cache', hproduce.pollsTo.bind (n := 0) ?_ ?_⟩
  · dsimp only
    rw [hkept]
    exact ((polls_recordSources chain sources).pollsTo.of_no_polls fun _ => False).bind (n := 0)
      (pollsTo_pure _ _) fun r hr => hr.elim
  · rintro r rfl
    exact ⟨(.error .canceled, missed), rfl, rfl, rfl⟩

/-- What a run comes to when nobody cancels: no cancellation, and nothing changed if it fails. -/
structure Settled (h : Host) (r : Except RunError (List Source) × Host) : Prop where
  uncanceled : r.1 ≠ .error .canceled
  kept : ∀ e, r.1 = .error e → h.Keeps r.2

theorem settled_ok (h h' : Host) (sources : List Source) : Settled h (.ok sources, h') := by
  refine ⟨?_, ?_⟩
  · intro he
    cases he
  · intro e he
    cases he

theorem linkOf_ne_canceled (config : Config) (name : String) :
    linkOf config name ≠ .error .canceled := by
  unfold linkOf
  cases Chain.standing config name <;> simp

theorem outcome_ne_canceled (hc : config.Usable) (hp : c.Placed) :
    outcome config c ≠ .error .canceled := by
  unfold outcome
  cases hl : linkOf config (c.name.getD "") with
  | error e =>
    intro he
    exact linkOf_ne_canceled config _ (hl.trans (congrArg Except.error (Except.error.inj he)))
  | ok link =>
    cases link with
    | none => simp
    | some chain =>
      obtain ⟨⟨sources, hok⟩, -⟩ := exists_produced hc (linkOf_eq_link_iff.mp hl) hp
      simp [hok]

/-- What a run with a cache does once the name is resolved. -/
def runResolved (config : Config) (c : Compilation) (cache : RunCache) :
    Except RunError (Option Chain) → StateM Session (Except RunError (List Source) × RunCache)
  | .error e => pure (.error e, cache)
  | .ok none => pure (.ok [], cache)
  | .ok (some chain) => runLinked config chain c cache

theorem pollsTo_runCached {cache : RunCache} {n : Nat}
    {r : Except RunError (List Source) × RunCache}
    (h : PollsTo (CutShort cache)
      (runResolved config c cache (linkOf config (c.name.getD ""))) n r) :
    PollsTo (CutShort cache) (runCached config c cache) (1 + n) r := by
  have hrun : runCached config c cache =
      (resolve config c.name).run >>= runResolved config c cache := rfl
  rw [hrun]
  refine (polls_resolve config c.name).pollsTo.bind h ?_
  rintro r rfl
  exact ⟨(.error .canceled, cache), rfl, rfl, rfl⟩

theorem pollCount_of_stored {sources : List Source}
    (hstored : h.stored? (c.fingerprint, config) = some sources) : pollCount h config c = 1 := by
  unfold pollCount
  cases Chain.standing config (c.name.getD "") <;> simp [hstored]

theorem pollCount_of_unlinked
    (hlink : ∀ chain, linkOf config (c.name.getD "") ≠ .ok (some chain)) (h : Host) :
    pollCount h config c = 1 := by
  unfold pollCount
  cases hl : Chain.standing config (c.name.getD "") with
  | notVersioned => rfl
  | tooLong digits => rfl
  | belowBaseline => rfl
  | link chain => exact absurd (linkOf_eq_link_iff.mpr hl) (hlink chain)

/-- A run with a cache, poll by poll. -/
theorem exists_pollsTo_runCached (hc : config.Usable) (hp : c.Placed) {cache : RunCache}
    (hcache : h.cache = some cache) (hroom : 0 ≤ cache.capacity) :
    ∃ r, PollsTo (CutShort cache) (runCached config c cache) (pollCount h config c) r ∧
      Settled h (r.1, { h with cache := some r.2 }) := by
  have hkeeps : h.Keeps { h with cache := some cache } := ⟨by rw [hcache], rfl⟩
  have hstored : h.stored? (c.fingerprint, config) =
      (cache.entries.get? (c.fingerprint, config)).join := by
    rw [Host.stored?, hcache]
    rfl
  have hne := linkOf_ne_canceled config (c.name.getD "")
  cases hl : linkOf config (c.name.getD "") with
  | error e =>
    rw [hl] at hne
    rw [pollCount_of_unlinked (by simp [hl]) h]
    refine ⟨(.error e, cache), pollsTo_runCached (n := 0) ?_, by simpa using hne, fun _ _ => hkeeps⟩
    rw [hl]
    exact pollsTo_pure _ _
  | ok link =>
    cases link with
    | none =>
      rw [pollCount_of_unlinked (by simp [hl]) h]
      refine ⟨(.ok [], cache), pollsTo_runCached (n := 0) ?_, settled_ok _ _ _⟩
      rw [hl]
      exact pollsTo_pure _ _
    | some chain =>
      obtain ⟨⟨sources, hok⟩, -⟩ := exists_produced hc (linkOf_eq_link_iff.mp hl) hp
      cases hs : h.stored? (c.fingerprint, config) with
      | some found =>
        obtain ⟨cache', hhit⟩ := pollsTo_runLinked_hit chain (hstored.symm.trans hs)
        rw [pollCount_of_stored hs]
        refine ⟨(.ok found, cache'), pollsTo_runCached (n := 0) ?_, settled_ok _ _ _⟩
        rw [hl]
        exact hhit
      | none =>
        obtain ⟨cache', hmiss⟩ := pollsTo_runLinked_miss hroom (hstored.symm.trans hs) hok
        rw [← runPolls_eq hc hp hs, runPolls, hl]
        refine ⟨(.ok sources, cache'), pollsTo_runCached ?_, settled_ok _ _ _⟩
        rw [hl]
        exact hmiss

/-- A run for a host, poll by poll. -/
theorem exists_pollsTo_runFor (hc : config.Usable) (hp : c.Placed)
    (hroom : ∀ cache, h.cache = some cache → 0 ≤ cache.capacity) :
    ∃ r, PollsTo (fun r => r.1 = .error .canceled ∧ h.Keeps r.2) (runFor h config c)
      (pollCount h config c) r ∧ Settled h r := by
  unfold runFor
  cases hcache : h.cache with
  | none =>
    have hs : h.stored? (c.fingerprint, config) = none := by rw [Host.stored?, hcache]; rfl
    have hkeeps : h.Keeps h := ⟨rfl, rfl⟩
    rw [← runPolls_eq hc hp hs]
    refine ⟨(outcome config c, h), (polls_run config c).pollsTo.bind (n := 0) (pollsTo_pure _ _) ?_,
      outcome_ne_canceled hc hp, fun _ _ => hkeeps⟩
    rintro r rfl
    exact ⟨(.error .canceled, h), rfl, rfl, hkeeps⟩
  | some cache =>
    obtain ⟨r, hr, hsettled⟩ := exists_pollsTo_runCached hc hp hcache (hroom cache hcache)
    refine ⟨_, hr.bind (n := 0) (pollsTo_pure _ _) ?_, hsettled⟩
    rintro ⟨out, cache'⟩ ⟨hout, hentries⟩
    exact ⟨_, rfl, hout, by rw [hcache]; exact congrArg some hentries, rfl⟩

theorem runFor_output (h : Host) (config : Config) (c : Compilation) (s : Session) :
    ((runFor h config c).run s).1.2.output = h.output := by
  unfold runFor
  cases h.cache <;> rfl

/-- Delivering fails and leaves the output as it was, or adds texts to it, all of them. -/
theorem execute_cases (h : Host) (config : Config) (c : Compilation) (s : Session) :
    (∃ e h', ((execute h config c).run s).1 = (.error e, h') ∧ h'.output = h.output) ∨
      ∃ texts h', ((execute h config c).run s).1 = (.ok (), h') ∧
        h.output.addAll texts = .ok h'.output := by
  -- the run before does not touch the output
  have houtput := runFor_output h config c s
  obtain ⟨⟨⟨out, h₁⟩, s₁⟩, hrun⟩ : ∃ r, (runFor h config c).run s = r := ⟨_, rfl⟩
  rw [hrun] at houtput
  rw [execute, StateT.run_bind, hrun]
  cases out with
  | error e => exact Or.inl ⟨e, h₁, rfl, houtput⟩
  | ok sources =>
    dsimp only [bind]
    cases hadd : h₁.output.addAll (sources.map fun src => (src.hint, src.text)) with
    | error f => exact Or.inl ⟨.failed f, h₁, rfl, houtput⟩
    | ok output =>
      right
      refine ⟨sources.map fun src => (src.hint, src.text), { h₁ with output }, rfl, ?_⟩
      rw [← houtput]
      exact hadd

theorem execute_error {s : Session} {e : RunError} {h' : Host}
    (he : ((execute h config c).run s).1 = (.error e, h')) : h'.output = h.output := by
  rcases execute_cases h config c s with ⟨e₁, h₁, hfail, houtput⟩ | ⟨texts, h₁, hdone, -⟩
  · rw [hfail] at he
    cases he
    exact houtput
  · rw [hdone] at he
    cases he

/-- Cancellation at any poll. With a token that signals itself after `n` polls, a run is cancelled
exactly when it makes more than `n` polls, it stops at the poll that does not pass, and otherwise it
comes to all that it comes to without a token. Whenever a run fails, the host keeps its stored
outcomes and their order, and whenever delivering fails, the output is what it was. With more than
one worker, candidates would poll side by side, which runs do not follow here: what is said of the polls
is said of one worker only. -/
theorem run_canceled_iff {config : Config} {c : Compilation} {text : String} {s₀ : Session}
    {h : Host} (hvalid : ((ensureValid config).runIn s₀).1 = .ok ()) (_hserial : config.workers = 1)
    (hload : Compilation.load text = .ok c)
    (hroom : ∀ cache, h.cache = some cache → 0 ≤ cache.capacity) :
    (∀ n, (((runFor h config c).run (.start (some (.after n)))).1.1 = .error .canceled ↔
        n < pollCount h config c) ∧
      ((runFor h config c).run (.start (some (.after n)))).2.token.map Token.polls =
        some (min (n + 1) (pollCount h config c)) ∧
      (pollCount h config c ≤ n → ((runFor h config c).run (.start (some (.after n)))).1 =
        ((runFor h config c).run (.start none)).1)) ∧
    (∀ s e h', ((runFor h config c).run s).1 = (.error e, h') → h.Keeps h') ∧
    ∀ s e h', ((execute h config c).run s).1 = (.error e, h') → h'.output = h.output := by
  have hc : config.Usable := Config.usable_of_problems (ensureValid_eq_ok_iff.mp hvalid)
  have hp : c.Placed := (Compilation.load_eq_ok hload).1
  obtain ⟨result, hpolls, hsettled⟩ := exists_pollsTo_runFor hc hp hroom
  refine ⟨?_, ?_, fun s e h' he => execute_error he⟩
  · intro n
    obtain ⟨r, es, hrun, hr⟩ := hpolls (.start (some (.after n)))
    obtain ⟨hpass, hcount⟩ := Token.pollFor_limit (t := .after n) rfl
      (show _ = some n from rfl) (Nat.zero_le n) (pollCount h config c)
    obtain ⟨r₀, es₀, hrun₀, hr₀⟩ := hpolls (.start none)
    have hunpolled : ((Session.start none).pollFor (pollCount h config c)).2 = true := rfl
    have htoken : (Session.start (some (.after n))).pollFor (pollCount h config c) =
        (some ((Token.after n).pollFor (pollCount h config c)).1,
          ((Token.after n).pollFor (pollCount h config c)).2) := rfl
    have hzero : (Token.after n).polls = 0 := rfl
    rw [htoken, hpass, hzero, Nat.zero_add] at hr
    rw [hzero, Nat.zero_add] at hcount
    rw [hunpolled] at hr₀
    rw [if_pos rfl] at hr₀
    rw [hrun, hrun₀, htoken, hr₀]
    by_cases hle : pollCount h config c ≤ n
    · rw [if_pos (decide_eq_true hle)] at hr
      rw [hr]
      refine ⟨?_, congrArg some hcount, fun _ => rfl⟩
      exact ⟨fun he => absurd he hsettled.uncanceled, fun hlt => by omega⟩
    · rw [if_neg (by simpa using hle)] at hr
      refine ⟨?_, congrArg some hcount, fun hle' => absurd hle' hle⟩
      exact ⟨fun _ => by omega, fun _ => hr.1⟩
  · intro s e h' he
    obtain ⟨r, es, hrun, hr⟩ := hpolls s
    rw [hrun] at he
    obtain rfl : r = (.error e, h') := he
    by_cases hpass : (s.pollFor (pollCount h config c)).2 = true
    · rw [if_pos hpass] at hr
      rw [← hr] at hsettled
      exact hsettled.kept e rfl
    · rw [if_neg hpass] at hr
      exact hr.2

/-- A host that keeps a cache of one entry, which is still empty. -/
def freshHost : Host := ⟨some (.empty 1), .empty⟩

/-- With three namespaces and one candidate a run makes six polls, and any of them may cancel it. -/
theorem run_canceled_iff_twiceDeclared :
    ((ensureValid .default).runIn (.start none)).1 = .ok () ∧ Config.default.workers = 1 ∧
      Compilation.load twiceDeclared.dump = .ok twiceDeclared ∧
      (∀ cache, freshHost.cache = some cache → 0 ≤ cache.capacity) ∧
      ∀ n, (((runFor freshHost .default twiceDeclared).run (.start (some (.after n)))).1.1 =
          .error .canceled ↔ n < 6) ∧
        ((runFor freshHost .default twiceDeclared).run (.start (some (.after n)))).2.token.map
          Token.polls = some (min (n + 1) 6) := by
  have hvalid : ((ensureValid .default).runIn (.start none)).1 = .ok () :=
    ensureValid_eq_ok_iff.mpr (by decide)
  have hroom : ∀ cache, freshHost.cache = some cache → 0 ≤ cache.capacity := by
    intro cache hcache
    cases hcache
    decide
  have hc : Config.default.Usable := Config.usable_of_problems (by decide)
  have hp : twiceDeclared.Placed := (Compilation.load_eq_ok twiceDeclared_loads).1
  have hcount : pollCount freshHost .default twiceDeclared = 6 := by
    rw [← runPolls_eq hc hp rfl]
    decide +kernel
  obtain ⟨hpolls, -, -⟩ := run_canceled_iff hvalid rfl twiceDeclared_loads hroom
  rw [hcount] at hpolls
  exact ⟨hvalid, rfl, twiceDeclared_loads, hroom, fun n => ⟨(hpolls n).1, (hpolls n).2.1⟩⟩

end Generator

end TierHost
