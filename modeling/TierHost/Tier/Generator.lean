import TierHost.Host.Session
import TierHost.Symbols.Outline
import TierHost.Text.Order
import TierHost.Tier.Cache
import TierHost.Tier.Candidates
import TierHost.Tier.Options
import TierHost.Tier.Output
import TierHost.Tier.Source

/-!
Runs of the generator over compilations: the name of a compilation tells its tier, the previous
tier's assembly the candidates, and every candidate becomes a source unit. Cancellation is polled
when a run starts, at every namespace and before every candidate. Candidates are followed one after
another, also where a configuration asks for several workers: these come to the same sources in the same
order, but in which order they poll, and how many still do after a cancellation, is not modelled.
-/

namespace TierHost

/-- Why a run of the generator ends without sources. -/
inductive RunError where
  | canceled
  | tierTooLong (digits : Nat)
  | failed (failure : Failure)
  | unwritable
  | cache (error : CacheError)
  deriving DecidableEq, Repr

def RunError.message : RunError → String
  | .canceled => Token.canceledMessage
  | .tierTooLong digits => Chain.tooLongMessage digits
  | .failed failure => failure.report
  | .unwritable => Text.unwritable
  | .cache error => error.message

def RunError.ofOption : Config.OptionError → RunError
  | .failed failure => .failed failure
  | .unwritable => .unwritable

/-- What identifies the outcome of a run. -/
abbrev RunKey := String × Config

abbrev RunCache := Cache RunKey (List Source)

/-- What a host keeps between runs: a cache, if it wants one, and the output. -/
structure Host where
  cache : Option RunCache
  output : Output
  deriving Repr

namespace Generator

open Work

def recordProblems {ε : Type} (config : Config) : Work ε Unit :=
  config.problems.forM fun p => record (.configProblem p.message)

def ensureValid (config : Config) : Work RunError Unit := do
  recordProblems config
  match config.problems with
  | [] => return
  | p :: _ => throw (.failed (.invalidConfig p))

/-- The configuration that options make of a base, with its problems logged. -/
def configure (base : Config) (options : Listing String Value) : Work RunError Config := do
  match base.withOptions options with
  | .error e => throw (.ofOption e)
  | .ok config =>
    recordProblems config
    return config

/-- The link of a compilation's name in the chain; a missing name counts as the empty one. -/
def resolve (config : Config) (name : Option String) : Work RunError (Option Chain) := do
  poll .canceled
  let name := name.getD ""
  match Chain.standing config name with
  | .notVersioned =>
    record (.notVersioned name)
    return none
  | .tooLong digits => throw (.tierTooLong digits)
  | .belowBaseline =>
    record (.belowBaseline name config.baseline)
    return none
  | .link chain =>
    record (.resolved name chain.previousAssembly)
    return some chain

/-- Performs the steps of a search; the names taken are returned in order. -/
def search : List Naming.Step → Work RunError (List String)
  | [] => return []
  | .enter :: steps => do
    poll .canceled
    search steps
  | .skip name :: steps => do
    record (.skippedGlobalType name)
    search steps
  | .take name :: steps => do
    return name :: (← search steps)

/-- The candidates below a symbol, in increasing order. -/
def searchSymbol (naming : Naming) (s : Symbol) : Work RunError (List String) := do
  return Text.sortedDistinct (← search (naming.steps s))

/-- The candidates that the tier below exports, in increasing order. -/
def candidates (config : Config) (chain : Chain) (c : Compilation) :
    Work RunError (List String) := do
  poll .canceled
  match c.reference? chain.previousAssembly with
  | none =>
    record (.notReferenced chain.currentAssembly chain.previousAssembly)
    return []
  | some previous =>
    let names ← searchSymbol ⟨chain.previousToken, config.suffix⟩ (.assembly previous)
    record (.collected names.length previous.name)
    return names

def emitOne (config : Config) (chain : Option Chain) (candidate : String) :
    Work RunError Source := do
  poll .canceled
  match chain with
  | none => throw (.failed .noChain)
  | some chain =>
    match Rename.spec config chain candidate with
    | .ok spec => return Source.ofSpec config spec
    | .error f => throw (.failed f)

/-- The sources of all candidates, one after another; the number of workers that the configuration asks
for is not looked at. -/
def produce (config : Config) (chain : Chain) (c : Compilation) : Work RunError (List Source) := do
  (← candidates config chain c).mapM (emitOne config (some chain))

def recordSources (chain : Chain) (sources : List Source) : Work RunError (List Source) := do
  record (.generated sources.length chain.currentAssembly)
  return sources

/-- A run without a cache. -/
def run (config : Config) (c : Compilation) : Work RunError (List Source) := do
  match ← resolve config c.name with
  | none => return []
  | some chain => recordSources chain (← produce config chain c)

/-- What a run does with a cache once its link is known. -/
def runLinked (config : Config) (chain : Chain) (c : Compilation) (cache : RunCache) :
    StateM Session (Except RunError (List Source) × RunCache) := do
  let key := (c.fingerprint, config)
  match cache.get key with
  | (some sources, cache) =>
    let found : Work RunError (List Source) := do
      record (.cacheHit chain.currentAssembly)
      return sources
    return (← found.run, cache)
  | (none, cache) =>
    match ← (produce config chain c).run with
    | .error e => return (.error e, cache)
    | .ok sources =>
      match cache.put key (some sources) with
      | (.error e, cache) => return (.error (.cache e), cache)
      | (.ok _, cache) => return (← (recordSources chain sources).run, cache)

/-- A run that looks its outcome up in a cache first and stores it there. -/
def runCached (config : Config) (c : Compilation) (cache : RunCache) :
    StateM Session (Except RunError (List Source) × RunCache) := do
  match ← (resolve config c.name).run with
  | .error e => return (.error e, cache)
  | .ok none => return (.ok [], cache)
  | .ok (some chain) => runLinked config chain c cache

/-- A run with the cache that a host keeps, if it keeps one. -/
def runFor (h : Host) (config : Config) (c : Compilation) :
    StateM Session (Except RunError (List Source) × Host) := do
  match h.cache with
  | none => return (← (run config c).run, h)
  | some cache =>
    let (outcome, cache) ← runCached config c cache
    return (outcome, { h with cache := some cache })

/-- A run whose source units go to the host's output, all or none of them. -/
def execute (h : Host) (config : Config) (c : Compilation) :
    StateM Session (Except RunError Unit × Host) := do
  match ← runFor h config c with
  | (.error e, h) => return (.error e, h)
  | (.ok sources, h) =>
    match h.output.addAll (sources.map fun s => (s.hint, s.text)) with
    | .error f => return (.error (.failed f), h)
    | .ok output => return (.ok (), { h with output })

end Generator

end TierHost
