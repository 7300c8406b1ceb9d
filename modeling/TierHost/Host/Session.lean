import TierHost.Host.Event
import TierHost.Host.Token

/-!
The surroundings of running work: the token it polls, if the host gave one, and the log it writes.
Both are kept when the work fails.
-/

namespace TierHost

/-- The token of a host, if there is one, and the log so far. -/
structure Session where
  token : Option Token
  events : Array Event
  deriving Repr

def Session.start (token : Option Token) : Session := ⟨token, #[]⟩

abbrev Work (ε : Type) := ExceptT ε (StateM Session)

namespace Work

variable {ε α : Type}

def record (e : Event) : Work ε Unit :=
  modify fun s => { s with events := s.events.push e }

/-- Polls the token, and fails if cancellation has been requested. -/
def poll (canceled : ε) : Work ε Unit := do
  match (← get).token with
  | none => return
  | some token =>
    let token := token.poll
    modify fun s => { s with token := some token }
    if token.requested then throw canceled

/-- The outcome of work in a session, and the session after it. -/
def runIn (w : Work ε α) (s : Session) : Except ε α × Session := (ExceptT.run w).run s

end Work

end TierHost
