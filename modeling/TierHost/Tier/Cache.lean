import TierHost.Listing

/-!
A bounded cache that forgets the entry used longest ago. A stored absence counts as a miss.
-/

namespace TierHost

/-- Entries from the one used longest ago to the latest, and the counts of look-ups. -/
structure Cache (κ ν : Type) where
  capacity : Int
  entries : Listing κ (Option ν)
  hits : Nat
  misses : Nat
  deriving Repr

/-- Why an entry cannot be kept. -/
inductive CacheError where
  | nothingToForget
  deriving DecidableEq, Repr

def CacheError.message : CacheError → String
  | .nothingToForget => "'dictionary is empty'"

namespace Cache

variable {κ ν : Type} [DecidableEq κ]

def empty (capacity : Int) : Cache κ ν := ⟨capacity, [], 0, 0⟩

def size (c : Cache κ ν) : Nat := c.entries.length

/-- Looks a key up; one that is found becomes the latest. -/
def get (c : Cache κ ν) (k : κ) : Option ν × Cache κ ν :=
  match c.entries.get? k with
  | some (some v) =>
    (some v, { c with entries := c.entries.remove k ++ [(k, some v)], hits := c.hits + 1 })
  | _ => (none, { c with misses := c.misses + 1 })

/-- Stores a value as the latest entry and forgets the oldest ones beyond the capacity. A cache
without room stores nothing, and one of negative capacity has nothing left to forget. -/
def put (c : Cache κ ν) (k : κ) (v : Option ν) : Except CacheError Unit × Cache κ ν :=
  -- the order of the checks matters: only a negative capacity runs out of entries to forget
  if c.capacity = 0 then (.ok (), c)
  else if c.capacity < 0 then (.error .nothingToForget, { c with entries := [] })
  else
    let entries := c.entries.remove k ++ [(k, v)]
    (.ok (), { c with entries := entries.drop (entries.length - c.capacity.toNat) })

/-- Forgets all entries; the counts stay. -/
def clear (c : Cache κ ν) : Cache κ ν := { c with entries := [] }

end Cache

end TierHost
