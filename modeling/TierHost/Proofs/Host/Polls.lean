import TierHost.Host.Session
import Mathlib.Tactic.Common

/-!
Work and the polls it makes. What work comes to is told by one relation: how often it polls, and
its outcome if every poll passes; each way of composing work has one rule for it. A second relation says
the same of work whose result says more than whether it failed.
-/

namespace TierHost

/-- Polls a token up to `n` times and stops when cancellation has been requested; the flag tells
whether all polls passed. -/
def Token.pollFor : Nat → Token → Token × Bool
  | 0, t => (t, true)
  | n + 1, t => if t.poll.requested then (t.poll, false) else pollFor n t.poll

theorem Token.pollFor_add (m n : Nat) (t : Token) :
    t.pollFor (m + n) = if (t.pollFor m).2 then (t.pollFor m).1.pollFor n else t.pollFor m := by
  induction m generalizing t with
  | zero => simp [pollFor]
  | succ m ih =>
    rw [Nat.succ_add, pollFor, pollFor]
    by_cases h : t.poll.requested
    · simp [h]
    · rw [if_neg h, if_neg h, ih]

/-- Nobody has signalled the token, and it does not signal itself. -/
def Token.Quiet (t : Token) : Prop := t.requested = false ∧ t.limit = .none

theorem Token.Quiet.pollFor {t : Token} (h : t.Quiet) (n : Nat) :
    (t.pollFor n).2 = true ∧ (t.pollFor n).1.Quiet := by
  induction n generalizing t with
  | zero => exact ⟨rfl, h⟩
  | succ n ih =>
    have hp : t.poll.requested = false := by simp [Token.poll, h.1, h.2]
    rw [Token.pollFor, if_neg (by simp [hp])]
    exact ih ⟨hp, h.2⟩

namespace Session

/-- The session after up to `n` polls of its token, and whether all of them passed. -/
def pollFor (n : Nat) (s : Session) : Option Token × Bool :=
  match s.token with
  | none => (none, true)
  | some t => (some (t.pollFor n).1, (t.pollFor n).2)

/-- Cancellation is never requested in the session. -/
def Quiet (s : Session) : Prop := ∀ t, s.token = some t → t.Quiet

/-- Without a token nothing is ever cancelled. -/
theorem quiet_of_token {s : Session} (h : s.token = none) : s.Quiet := by
  intro t ht
  rw [h] at ht
  cases ht

theorem pollFor_zero (s : Session) : s.pollFor 0 = (s.token, true) := by
  rcases s with ⟨_ | t, es⟩ <;> rfl

theorem pollFor_add (m n : Nat) (s : Session) (events : Array Event) :
    s.pollFor (m + n) =
      if (s.pollFor m).2 then pollFor n ⟨(s.pollFor m).1, events⟩ else s.pollFor m := by
  rcases s with ⟨_ | t, es⟩
  · rfl
  · simp only [pollFor, Token.pollFor_add]
    by_cases h : (t.pollFor m).2 = true <;> simp [h]

/-- Without cancellation all polls pass, and there is none afterwards either. -/
theorem Quiet.pollFor {s : Session} (h : s.Quiet) (n : Nat) (events : Array Event) :
    (s.pollFor n).2 = true ∧ Quiet ⟨(s.pollFor n).1, events⟩ := by
  rcases s with ⟨_ | t, es⟩
  · refine ⟨rfl, ?_⟩
    intro t ht
    cases ht
  · obtain ⟨hpass, hquiet⟩ := (h t rfl).pollFor n
    refine ⟨hpass, ?_⟩
    intro t' ht'
    rw [← Option.some.inj ht']
    exact hquiet

end Session

namespace Work

variable {ε α β : Type}

theorem runIn_pure (a : α) (s : Session) : (pure a : Work ε α).runIn s = (.ok a, s) := rfl

theorem runIn_throw (e : ε) (s : Session) : (throw e : Work ε α).runIn s = (.error e, s) := rfl

theorem runIn_bind (w : Work ε α) (f : α → Work ε β) (s : Session) :
    (w >>= f).runIn s =
      match w.runIn s with
      | (.ok a, s') => (f a).runIn s'
      | (.error e, s') => (.error e, s') := by
  change (ExceptT.run (w >>= f)).run s = _
  rw [ExceptT.run_bind, StateT.run_bind]
  cases hw : w.runIn s with
  | mk r s' =>
    have hr : (ExceptT.run w).run s = (r, s') := hw
    rw [hr]
    cases r <;> rfl

theorem runIn_map (g : α → β) (w : Work ε α) (s : Session) :
    (g <$> w).runIn s = ((w.runIn s).1.map g, (w.runIn s).2) := by
  rw [map_eq_pure_bind, runIn_bind]
  cases hw : w.runIn s with
  | mk outcome s' => cases outcome <;> rfl

/-- In every session the work polls up to `n` times, fails at the first poll that does not pass, and
has this outcome if all of them pass. -/
def Polls (canceled : ε) (w : Work ε α) (n : Nat) (outcome : Except ε α) : Prop :=
  ∀ s : Session, ∃ events, w.runIn s =
    (if (s.pollFor n).2 then outcome else .error canceled, ⟨(s.pollFor n).1, events⟩)

variable {canceled : ε} {m n : Nat}

theorem polls_pure (a : α) : Polls canceled (pure a) 0 (.ok a) := by
  intro s
  exact ⟨s.events, by simp [Session.pollFor_zero, runIn_pure]⟩

theorem polls_throw (e : ε) : Polls canceled (throw e : Work ε α) 0 (.error e) := by
  intro s
  exact ⟨s.events, by simp [Session.pollFor_zero, runIn_throw]⟩

theorem polls_record (e : Event) : Polls canceled (record e) 0 (.ok ()) := by
  intro s
  exact ⟨s.events.push e, by rw [Session.pollFor_zero]; rfl⟩

theorem polls_poll : Polls canceled (poll canceled) 1 (.ok ()) := by
  intro s
  refine ⟨s.events, ?_⟩
  rcases s with ⟨_ | t, es⟩
  · rfl
  · simp only [Session.pollFor, Token.pollFor]
    change ((if t.poll.requested then throw canceled else pure ()) : Work ε Unit).runIn _ = _
    by_cases h : t.poll.requested <;> simp [h, runIn_pure, runIn_throw]

/-- Work that ends well is followed by the polls and the outcome of what comes after it. -/
theorem Polls.bind {w : Work ε α} {f : α → Work ε β} {a : α} {outcome : Except ε β}
    (hw : Polls canceled w m (.ok a)) (hf : Polls canceled (f a) n outcome) :
    Polls canceled (w >>= f) (m + n) outcome := by
  intro s
  obtain ⟨es, hs⟩ := hw s
  obtain ⟨es', hs'⟩ := hf ⟨(s.pollFor m).1, es⟩
  rw [runIn_bind, hs, Session.pollFor_add m n s es]
  by_cases h : (s.pollFor m).2
  · exact ⟨es', by simpa only [if_pos h] using hs'⟩
  · exact ⟨es, by simp only [if_neg h]⟩

theorem Polls.after_record {w : Work ε α} {outcome : Except ε α} (h : Polls canceled w n outcome)
    (e : Event) : Polls canceled (record e >>= fun _ => w) n outcome := by
  simpa using (polls_record e).bind (f := fun _ => w) h

theorem Polls.bind_error {w : Work ε α} {f : α → Work ε β} {e : ε}
    (hw : Polls canceled w m (.error e)) : Polls canceled (w >>= f) m (.error e) := by
  intro s
  obtain ⟨es, hs⟩ := hw s
  refine ⟨es, ?_⟩
  rw [runIn_bind, hs]
  by_cases h : (s.pollFor m).2
  · simp only [if_pos h]
  · simp only [if_neg h]

/-- How many of the entries are tried when the first failure ends the work. -/
def tried (g : α → Except ε β) : List α → Nat
  | [] => 0
  | a :: as => match g a with
    | .ok _ => tried g as + 1
    | .error _ => 1

theorem polls_mapM {f : α → Work ε β} {g : α → Except ε β}
    (h : ∀ a, Polls canceled (f a) 1 (g a)) (as : List α) :
    Polls canceled (as.mapM f) (tried g as) (as.mapM g) := by
  induction as with
  | nil => exact polls_pure []
  | cons a as ih =>
    -- the first entry that fails ends the work, and the entries behind it make no polls
    rw [List.mapM_cons, List.mapM_cons, tried]
    have ha := h a
    cases hg : g a with
    | error e =>
      rw [hg] at ha
      exact ha.bind_error
    | ok b =>
      rw [hg] at ha
      rw [Nat.add_comm]
      refine ha.bind ?_
      cases hgs : as.mapM g with
      | error e =>
        rw [hgs] at ih
        exact ih.bind_error
      | ok bs =>
        rw [hgs] at ih
        exact ih.bind (f := fun bs => pure (b :: bs)) (polls_pure (b :: bs))

/-- Without cancellation the outcome does not depend on the session, and there is none afterwards. -/
theorem Polls.exists_runIn {w : Work ε α} {outcome : Except ε α} (h : Polls canceled w n outcome)
    {s : Session} (hs : s.Quiet) : ∃ s' : Session, w.runIn s = (outcome, s') ∧ s'.Quiet := by
  obtain ⟨es, he⟩ := h s
  obtain ⟨hpass, hquiet⟩ := hs.pollFor n es
  exact ⟨_, by rw [he, if_pos hpass], hquiet⟩

theorem Polls.runIn_quiet {w : Work ε α} {outcome : Except ε α} (h : Polls canceled w n outcome)
    {s : Session} (hs : s.Quiet) : (w.runIn s).1 = outcome := by
  obtain ⟨s', hrun, -⟩ := h.exists_runIn hs
  rw [hrun]

/-- Work that has ended well in some session has come to its outcome. -/
theorem Polls.eq_of_runIn {w : Work ε α} {a b : α} (h : Polls canceled w n (.ok a)) {s : Session}
    (hr : (w.runIn s).1 = .ok b) : b = a := by
  obtain ⟨es, hs⟩ := h s
  rw [hs] at hr
  by_cases hpass : (s.pollFor n).2 = true
  · rw [if_pos hpass] at hr
    exact (Except.ok.inj hr).symm
  · rw [if_neg hpass] at hr
    cases hr

/-- In every session the work polls up to `n` times; it comes to this result if all polls pass, and
to one that is cut short if a poll does not. -/
def PollsTo (cut : α → Prop) (w : StateM Session α) (n : Nat) (result : α) : Prop :=
  ∀ s : Session, ∃ r events, w.run s = (r, ⟨(s.pollFor n).1, events⟩) ∧
    if (s.pollFor n).2 then r = result else cut r

theorem Polls.pollsTo {w : Work ε α} {outcome : Except ε α} (h : Polls canceled w n outcome) :
    PollsTo (· = .error canceled) (ExceptT.run w) n outcome := by
  intro s
  obtain ⟨es, hs⟩ := h s
  refine ⟨_, es, hs, ?_⟩
  by_cases hpass : (s.pollFor n).2 = true
  · rw [if_pos hpass, if_pos hpass]
  · rw [if_neg hpass, if_neg hpass]

theorem pollsTo_pure (cut : α → Prop) (a : α) : PollsTo cut (pure a) 0 a := by
  intro s
  refine ⟨a, s.events, ?_, ?_⟩
  · rw [Session.pollFor_zero]
    rfl
  · rw [Session.pollFor_zero, if_pos rfl]

/-- Work that makes no polls is not cut short. -/
theorem PollsTo.of_no_polls {cut : α → Prop} {w : StateM Session α} {a : α}
    (h : PollsTo cut w 0 a) (cut' : α → Prop) : PollsTo cut' w 0 a := by
  intro s
  obtain ⟨r, es, hrun, hr⟩ := h s
  have hpass : (s.pollFor 0).2 = true := by rw [Session.pollFor_zero]
  rw [if_pos hpass] at hr
  exact ⟨r, es, hrun, by rw [if_pos hpass, hr]⟩

/-- What comes after work that was cut short makes no polls, and passes that on. -/
theorem PollsTo.bind {cut : α → Prop} {cut' : β → Prop} {w : StateM Session α}
    {f : α → StateM Session β} {a : α} {b : β} (hw : PollsTo cut w m a)
    (hf : PollsTo cut' (f a) n b) (hcut : ∀ r, cut r → ∃ r', f r = pure r' ∧ cut' r') :
    PollsTo cut' (w >>= f) (m + n) b := by
  intro s
  obtain ⟨r, es, hrun, hr⟩ := hw s
  have hbind : (w >>= f).run s = (f r).run ⟨(s.pollFor m).1, es⟩ := by
    rw [StateT.run_bind, hrun]
    rfl
  rw [hbind, Session.pollFor_add m n s es]
  by_cases hpass : (s.pollFor m).2 = true
  · rw [if_pos hpass] at hr ⊢
    rw [hr]
    exact hf _
  · rw [if_neg hpass] at hr ⊢
    obtain ⟨r', hf', hcut'⟩ := hcut r hr
    refine ⟨r', es, ?_, ?_⟩
    · rw [hf']
      rfl
    · rw [if_neg hpass]
      exact hcut'

end Work
end TierHost
