import TierHost.Proofs.Host.Polls
import TierHost.Tier.Generator

/-!
What the stages of a run come to, as functions of the configuration and the compilation alone, and
the polls that the stages make on the way.
-/

namespace TierHost.Generator

open Work

/-- What an assembly name comes to when nobody cancels. -/
def linkOf (config : Config) (name : String) : Except RunError (Option Chain) :=
  match Chain.standing config name with
  | .link chain => .ok (some chain)
  | .tooLong digits => .error (.tierTooLong digits)
  | .notVersioned | .belowBaseline => .ok none

/-- The names of the candidates that the tier below exports. -/
def candidateNames (config : Config) (chain : Chain) (c : Compilation) : List String :=
  match c.reference? chain.previousAssembly with
  | none => []
  | some previous =>
    Text.sortedDistinct (Naming.found ⟨chain.previousToken, config.suffix⟩ (.assembly previous))

/-- The polls of the search for candidates. -/
def candidatePolls (config : Config) (chain : Chain) (c : Compilation) : Nat :=
  match c.reference? chain.previousAssembly with
  | none => 1
  | some previous =>
    1 + (Naming.steps ⟨chain.previousToken, config.suffix⟩ (.assembly previous)).count .enter

/-- The source unit of a candidate when nobody cancels. -/
def sourceOf (config : Config) (chain : Chain) (candidate : String) : Except RunError Source :=
  match Rename.spec config chain candidate with
  | .ok spec => .ok (Source.ofSpec config spec)
  | .error f => .error (.failed f)

/-- The source units of a compilation when nobody cancels. -/
def produced (config : Config) (chain : Chain) (c : Compilation) : Except RunError (List Source) :=
  (candidateNames config chain c).mapM (sourceOf config chain)

/-- The polls of the search and of the source units. -/
def producePolls (config : Config) (chain : Chain) (c : Compilation) : Nat :=
  candidatePolls config chain c + tried (sourceOf config chain) (candidateNames config chain c)

/-- What a run without a cache comes to when nobody cancels. -/
def outcome (config : Config) (c : Compilation) : Except RunError (List Source) :=
  match linkOf config (c.name.getD "") with
  | .error e => .error e
  | .ok none => .ok []
  | .ok (some chain) => produced config chain c

/-- The polls of a run without a cache. -/
def runPolls (config : Config) (c : Compilation) : Nat :=
  match linkOf config (c.name.getD "") with
  | .ok (some chain) => 1 + producePolls config chain c
  | _ => 1

theorem linkOf_eq_link_iff {config : Config} {name : String} {chain : Chain} :
    linkOf config name = .ok (some chain) ↔ Chain.standing config name = .link chain := by
  rw [linkOf]
  cases Chain.standing config name <;> simp

theorem polls_resolve (config : Config) (name : Option String) :
    Polls .canceled (resolve config name) 1 (linkOf config (name.getD "")) := by
  rw [resolve, linkOf]
  refine polls_poll.bind (n := 0) ?_
  dsimp only
  cases Chain.standing config (name.getD "") with
  | notVersioned => exact (polls_pure none).after_record _
  | tooLong digits => exact polls_throw (RunError.tierTooLong digits)
  | belowBaseline => exact (polls_pure none).after_record _
  | link chain => exact (polls_pure (some chain)).after_record _

theorem polls_search (steps : List Naming.Step) :
    Polls .canceled (search steps) (steps.count .enter)
      (.ok (steps.filterMap Naming.Step.taken?)) := by
  induction steps with
  | nil => exact polls_pure []
  | cons step steps ih =>
    cases step with
    | enter =>
      rw [search, List.count_cons_self, Nat.add_comm]
      exact polls_poll.bind ih
    | skip name => exact ih.after_record _
    | take name => exact ih.bind (f := fun names => pure (name :: names)) (polls_pure _)

theorem polls_searchSymbol (naming : Naming) (s : Symbol) :
    Polls .canceled (searchSymbol naming s) ((naming.steps s).count .enter)
      (.ok (Text.sortedDistinct (naming.found s))) :=
  (polls_search (naming.steps s)).bind (f := fun names => pure (Text.sortedDistinct names))
    (polls_pure _)

theorem polls_candidates (config : Config) (chain : Chain) (c : Compilation) :
    Polls .canceled (candidates config chain c) (candidatePolls config chain c)
      (.ok (candidateNames config chain c)) := by
  rw [candidates, candidatePolls, candidateNames]
  cases c.reference? chain.previousAssembly with
  | none =>
    refine polls_poll.bind (n := 0) ?_
    exact (polls_pure []).after_record _
  | some previous =>
    refine polls_poll.bind ?_
    refine (polls_searchSymbol _ _).bind (n := 0) ?_
    exact (polls_pure _).after_record _

theorem polls_emitOne (config : Config) (chain : Chain) (candidate : String) :
    Polls .canceled (emitOne config (some chain) candidate) 1
      (sourceOf config chain candidate) := by
  rw [emitOne, sourceOf]
  refine polls_poll.bind (n := 0) ?_
  cases Rename.spec config chain candidate with
  | error f => exact polls_throw (RunError.failed f)
  | ok spec => exact polls_pure _

theorem polls_produce (config : Config) (chain : Chain) (c : Compilation) :
    Polls .canceled (produce config chain c) (producePolls config chain c)
      (produced config chain c) :=
  (polls_candidates config chain c).bind (polls_mapM (polls_emitOne config chain) _)

theorem polls_recordSources (chain : Chain) (sources : List Source) :
    Polls .canceled (recordSources chain sources) 0 (.ok sources) :=
  (polls_pure sources).after_record _

/-- A run without a cache, poll by poll: it is the pure outcome unless a poll does not pass. -/
theorem polls_run (config : Config) (c : Compilation) :
    Polls .canceled (run config c) (runPolls config c) (outcome config c) := by
  have hr := polls_resolve config c.name
  rw [run, runPolls, outcome]
  cases hl : linkOf config (c.name.getD "") with
  | error e =>
    rw [hl] at hr
    exact hr.bind_error
  | ok link =>
    rw [hl] at hr
    cases link with
    | none => exact hr.bind (n := 0) (polls_pure [])
    | some chain =>
      refine hr.bind ?_
      have hp := polls_produce config chain c
      dsimp only
      cases ho : produced config chain c with
      | error e =>
        rw [ho] at hp
        exact hp.bind_error
      | ok sources =>
        rw [ho] at hp
        exact hp.bind (n := 0) (polls_recordSources chain sources)

end TierHost.Generator
