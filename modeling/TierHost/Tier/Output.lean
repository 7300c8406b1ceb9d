import TierHost.Listing
import TierHost.Tier.Failure

/-!
The output of a compilation: source texts under hint names, which are unique, in the order in which
they were added.
-/

namespace TierHost

/-- Source texts under their hint names. -/
structure Output where
  entries : Listing String String
  deriving DecidableEq, Repr

namespace Output

def empty : Output := ⟨[]⟩

def hints (o : Output) : List String := o.entries.keys

def get? (o : Output) (hint : String) : Option String := o.entries.get? hint

def has (o : Output) (hint : String) : Bool := o.hints.contains hint

def size (o : Output) : Nat := o.entries.length

/-- Adds a text, under a hint that is not in use yet. -/
def add (o : Output) (hint text : String) : Except Failure Output :=
  if o.has hint then .error (.duplicateHint hint) else .ok ⟨o.entries.put hint text⟩

/-- A batch with one more text. Its hint must be in use neither in the output nor in the batch. -/
def stage (o : Output) (batch : Listing String String) (entry : String × String) :
    Except Failure (Listing String String) :=
  if o.has entry.1 || batch.keys.contains entry.1 then .error (.duplicateHint entry.1)
  else .ok (batch.put entry.1 entry.2)

/-- Adds texts, all or none of them: they are put in when the whole batch has been staged. -/
def addAll (o : Output) (texts : List (String × String)) : Except Failure Output := do
  let batch ← texts.foldlM o.stage []
  return ⟨batch.foldl (fun entries e => entries.put e.1 e.2) o.entries⟩

end Output

end TierHost
