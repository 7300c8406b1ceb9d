/-!
Cancellation tokens: one-shot flags that running work polls. A token counts its polls, and a limit
makes it signal itself once it has been polled that often.
-/

namespace TierHost

/-- A cancellation token. -/
structure Token where
  cancelable : Bool
  requested : Bool
  limit : Option Nat
  polls : Nat
  deriving DecidableEq, Repr

namespace Token

def none : Token := ⟨false, false, .none, 0⟩

def active : Token := ⟨true, false, .none, 0⟩

/-- A token that lets so many polls pass and signals itself at the next. -/
def after (limit : Nat) : Token := ⟨true, false, some limit, 0⟩

/-- Signals the token; `none` for a token that cannot be. -/
def cancel? (t : Token) : Option Token :=
  if t.cancelable then some { t with requested := true } else .none

def poll (t : Token) : Token :=
  let polls := t.polls + 1
  { t with polls, requested := t.requested || t.limit.any (· < polls) }

def describe (t : Token) : String :=
  if t.requested then "<CancellationToken canceled>" else "<CancellationToken active>"

def cancelError : String := "CancellationToken.none() cannot be canceled"

def canceledMessage : String := "The operation was canceled."

end Token

end TierHost
