import TierHost.Lint.Analyzer

/-!
The analyzers that a host knows, and those it has switched off.
-/

namespace TierHost

/-- Analyzers by name in order of registration, and the names that are switched off. -/
structure Registry where
  analyzers : Listing String Analyzer
  disabled : List String

namespace Registry

def empty : Registry := ⟨[], []⟩

/-- What registering an analyzer without rules is answered with. -/
def noRules (name : String) : String := name ++ " declares no supported diagnostics"

/-- Registers an analyzer; one with the same name gives up its place to it. -/
def register (r : Registry) (a : Analyzer) : Except String Registry :=
  if a.supported.isEmpty then .error (noRules a.name)
  else .ok { r with analyzers := r.analyzers.put a.name a }

def unregister (r : Registry) (name : String) : Registry :=
  { r with analyzers := r.analyzers.remove name }

/-- Switches a name off, whether it is registered or not. -/
def disable (r : Registry) (name : String) : Registry := { r with disabled := name :: r.disabled }

def enable (r : Registry) (name : String) : Registry :=
  { r with disabled := r.disabled.filter (· ≠ name) }

def all (r : Registry) : List Analyzer := r.analyzers.values

def enabled (r : Registry) : List Analyzer :=
  Listing.values (r.analyzers.filter fun e => !r.disabled.contains e.1)

def get? (r : Registry) (name : String) : Option Analyzer := r.analyzers.get? name

def supporting (r : Registry) (id : String) : List Analyzer :=
  r.all.filter fun a => a.ids.contains id

def names (r : Registry) : List String := Text.sorted r.analyzers.keys

end Registry

end TierHost
