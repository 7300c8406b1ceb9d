import TierHost.Lint.Run
import TierHost.Proofs.Code.Walk
import TierHost.Proofs.Host.Polls

/-!
What analyzers do when nobody cancels. Their acts are performed in order up to the first that fails,
and the reports before it are what is collected; each way of composing acts has one rule for it.
-/

namespace TierHost

/-- The token of the session, if there is one, cannot be signalled. -/
def Session.Inert (s : Session) : Prop := ∀ t, s.token = some t → t.cancelable = false

/-- Nothing is cancelled in the session, and nothing can be if that is asked for. -/
structure Session.Calm (inert : Prop) (s : Session) : Prop where
  quiet : s.Quiet
  inert : inert → s.Inert

variable {inert : Prop}

theorem Token.pollFor_cancelable (n : Nat) (t : Token) :
    (t.pollFor n).1.cancelable = t.cancelable := by
  induction n generalizing t with
  | zero => rfl
  | succ n ih =>
    rw [pollFor]
    by_cases h : t.poll.requested = true
    · rw [if_pos h]
      rfl
    · rw [if_neg h, ih]
      rfl

/-- Polling passes in a calm session, which stays calm. -/
theorem Session.Calm.pollFor {s : Session} (h : s.Calm inert) (n : Nat) (events : Array Event) :
    (s.pollFor n).2 = true ∧ Calm inert ⟨(s.pollFor n).1, events⟩ := by
  obtain ⟨hpass, hquiet⟩ := h.quiet.pollFor n events
  refine ⟨hpass, hquiet, ?_⟩
  intro hi t' ht'
  rcases s with ⟨_ | t, es⟩
  · cases ht'
  · obtain rfl : (t.pollFor n).1 = t' := Option.some.inj ht'
    rw [Token.pollFor_cancelable]
    exact h.inert hi t rfl

namespace Work

variable {ε α β : Type}

/-- In every calm session the work ends well with this value, and the session stays calm. -/
def Gives (inert : Prop) (w : Work ε α) (a : α) : Prop :=
  ∀ s : Session, s.Calm inert → ∃ s', w.runIn s = (.ok a, s') ∧ s'.Calm inert

theorem Polls.gives {canceled : ε} {w : Work ε α} {n : Nat} {a : α}
    (h : Polls canceled w n (.ok a)) : Gives inert w a := by
  intro s hs
  obtain ⟨es, he⟩ := h s
  obtain ⟨hpass, hcalm⟩ := hs.pollFor n es
  exact ⟨_, by rw [he, if_pos hpass], hcalm⟩

theorem gives_pure (a : α) : Gives inert (pure a : Work ε α) a := by
  intro s hs
  exact ⟨s, rfl, hs⟩

theorem gives_record (e : Event) : Gives inert (record e : Work ε Unit) () := by
  intro _ hs
  exact ⟨_, rfl, hs.quiet, hs.inert⟩

theorem Gives.bind {w : Work ε α} {f : α → Work ε β} {a : α} {b : β} (hw : Gives inert w a)
    (hf : Gives inert (f a) b) : Gives inert (w >>= f) b := by
  intro s hs
  obtain ⟨s', hrun, hs'⟩ := hw s hs
  obtain ⟨s'', hrun', hs''⟩ := hf s' hs'
  exact ⟨s'', by rw [runIn_bind, hrun]; exact hrun', hs''⟩

theorem gives_foldlM {f : β → α → Work ε β} {g : β → α → β} {as : List α}
    (h : ∀ b, ∀ a ∈ as, Gives inert (f b a) (g b a)) (b : β) :
    Gives inert (as.foldlM f b) (as.foldl g b) := by
  induction as generalizing b with
  | nil => exact gives_pure b
  | cons a as ih =>
    rw [List.foldlM_cons, List.foldl_cons]
    exact (h b a List.mem_cons_self).bind (ih (fun b a ha => h b a (List.mem_cons_of_mem _ ha)) _)

end Work

/-- The rules that an analyzer supports: for each identifier whether it is one of them, and its
severity unless it is off. -/
abbrev Rules := String → Option (Option Severity)

/-- What an act raises, if there is no token that it could signal. -/
def Act.raised? (rules : Rules) : Act → Option Raised
  | .report d => if (rules d.id).isSome then none else some (Linter.unsupported d.id)
  | .raise r => some r
  | .cancel => some (.failure "ValueError" Token.cancelError)

/-- What is collected of an act: a report, with the name of its analyzer and the severity of its rule,
unless that is off. -/
def Act.collected? (name : String) (rules : Rules) : Act → Option Diagnostic
  | .report d => (rules d.id).join.map fun severity =>
    { d with severity := some severity, analyzer := name }
  | _ => none

/-- Reporting a supported rule raises nothing. -/
theorem Act.raised?_report {rules : Rules} {d : Diagnostic} {severity : Option Severity}
    (h : rules d.id = some severity) : Act.raised? rules (.report d) = none := by
  rw [raised?, h]
  rfl

theorem Act.collected?_report {rules : Rules} {d : Diagnostic} {severity : Severity}
    (h : rules d.id = some (some severity)) (name : String) :
    Act.collected? name rules (.report d) =
      some { d with severity := some severity, analyzer := name } := by
  rw [collected?, h]
  rfl

/-- Nothing is cancelled by the act. -/
def Act.Uncanceling (inert : Prop) : Act → Prop
  | .report _ => True
  | .raise (.failure _ _) => True
  | .raise (.canceled _) => False
  | .cancel => inert

/-- An act that cancels nothing raises no cancellation. -/
theorem Act.Uncanceling.raised_failure {act : Act} (h : act.Uncanceling inert) {rules : Rules}
    {r : Raised} (hr : act.raised? rules = some r) : ∃ kind message, r = .failure kind message := by
  cases act with
  | report d =>
    rw [Act.raised?] at hr
    by_cases hrule : (rules d.id).isSome
    · rw [if_pos hrule] at hr
      cases hr
    · rw [if_neg hrule] at hr
      exact ⟨_, _, (Option.some.inj hr).symm⟩
  | raise r' =>
    cases r' with
    | failure kind message => exact ⟨kind, message, (Option.some.inj hr).symm⟩
    | canceled message => cases h
  | cancel => exact ⟨_, _, (Option.some.inj hr).symm⟩

/-- Everything that an analyzer does in a document, node by node in pre-order, and for each node action
by action in the order of their registration for its kind. One that does not start raises something and
does nothing else. -/
def Analyzer.actsIn (a : Analyzer) (doc : Document) : List Act :=
  match a.start with
  | .error r => [.raise r]
  | .ok actions => doc.root.preorder.flatMap fun node =>
    (actions.of node.kind).flatMap fun action => action doc node

namespace Linter

variable {name : String} {sev : Severities}

/-- What the first of the acts that raises anything raises. -/
def firstRaised? (rules : Rules) (acts : List Act) : Option Raised :=
  acts.findSome? (Act.raised? rules)

/-- What is collected of acts that raise nothing. -/
def collected (name : String) (rules : Rules) (acts : List Act) : List Diagnostic :=
  acts.filterMap (Act.collected? name rules)

/-- How work ends that raises the first of these acts that raises anything. -/
def ending (rules : Rules) (acts : List Act) : Except Raised Unit :=
  match firstRaised? rules acts with
  | some r => .error r
  | none => .ok ()

/-- In every calm session the work performs these acts: it raises what the first of them raises that
raises anything, and if none does it adds what is collected of them to the reports. -/
def Performs (inert : Prop) (name : String) (sev : Severities) (w : Acting Unit)
    (acts : List Act) : Prop :=
  ∀ (s : Session) (reports : List Diagnostic), s.Calm inert → ∃ s' reports', s'.Calm inert ∧
    w.run.run (s, reports) = (ending sev.get? acts, (s', reports')) ∧
    (firstRaised? sev.get? acts = none → reports' = reports ++ collected name sev.get? acts)

theorem firstRaised?_append (rules : Rules) (acts acts' : List Act) :
    firstRaised? rules (acts ++ acts') = (firstRaised? rules acts).or (firstRaised? rules acts') :=
  List.findSome?_append

theorem collected_append (name : String) (rules : Rules) (acts acts' : List Act) :
    collected name rules (acts ++ acts') = collected name rules acts ++ collected name rules acts' :=
  List.filterMap_append

theorem run_bind_acting {α β : Type} (w : Acting α) (f : α → Acting β)
    (st : Session × List Diagnostic) :
    (w >>= f).run.run st =
      match w.run.run st with
      | (.ok a, st') => (f a).run.run st'
      | (.error r, st') => (.error r, st') := by
  rw [ExceptT.run_bind, StateT.run_bind]
  obtain ⟨⟨r, st'⟩, hr⟩ : ∃ r, w.run.run st = r := ⟨_, rfl⟩
  rw [hr]
  cases r <;> rfl

theorem performs_pure : Performs inert name sev (pure ()) [] := by
  intro s reports hs
  refine ⟨s, reports, hs, rfl, fun _ => ?_⟩
  rw [collected, List.filterMap_nil, List.append_nil]

theorem Performs.bind {w v : Acting Unit} {acts acts' : List Act}
    (hw : Performs inert name sev w acts) (hv : Performs inert name sev v acts') :
    Performs inert name sev (w >>= fun _ => v) (acts ++ acts') := by
  intro s reports hs
  obtain ⟨s', reports', hs', hrun, hreports⟩ := hw s reports hs
  rw [run_bind_acting, hrun, ending, ending, firstRaised?_append]
  cases hfirst : firstRaised? sev.get? acts with
  | some r =>
    -- what comes after a failure is not performed
    refine ⟨s', reports', hs', rfl, ?_⟩
    intro hnone
    cases hnone
  | none =>
    obtain ⟨s'', reports'', hs'', hrun', hreports'⟩ := hv s' reports' hs'
    rw [ending] at hrun'
    refine ⟨s'', reports'', hs'', hrun', ?_⟩
    intro hnone
    rw [hreports' hnone, hreports hfirst, collected_append, List.append_assoc]

theorem Performs.forM {α : Type} {f : α → Acting Unit} {acts : α → List Act} {as : List α}
    (h : ∀ a ∈ as, Performs inert name sev (f a) (acts a)) :
    Performs inert name sev (as.forM f) (as.flatMap acts) := by
  induction as with
  | nil => exact performs_pure
  | cons a as ih =>
    rw [List.flatMap_cons]
    exact (h a List.mem_cons_self).bind (ih fun b hb => h b (List.mem_cons_of_mem a hb))

theorem run_get_acting (st : Session × List Diagnostic) :
    (get : Acting (Session × List Diagnostic)).run.run st = (.ok st, st) := rfl

theorem run_pollActing {s s' : Session} (reports : List Diagnostic)
    (h : (Work.poll Token.canceledMessage).runIn s = (.ok (), s')) :
    pollActing.run.run (s, reports) = (.ok (), (s', reports)) := by
  rw [pollActing, run_bind_acting, run_get_acting]
  dsimp only
  rw [h]
  rfl

theorem performs_poll : Performs inert name sev pollActing [] := by
  intro s reports hs
  have hpolls : Work.Polls Token.canceledMessage (Work.poll Token.canceledMessage) 1 (.ok ()) :=
    Work.polls_poll
  obtain ⟨es, hpoll⟩ := hpolls s
  obtain ⟨hpass, hcalm⟩ := hs.pollFor 1 es
  rw [if_pos hpass] at hpoll
  refine ⟨_, reports, hcalm, run_pollActing reports hpoll, fun _ => ?_⟩
  rw [collected, List.filterMap_nil, List.append_nil]

theorem firstRaised?_singleton (rules : Rules) (act : Act) :
    firstRaised? rules [act] = act.raised? rules := by
  rw [firstRaised?, List.findSome?_singleton]

theorem collected_singleton (name : String) (rules : Rules) (act : Act) :
    collected name rules [act] = (act.collected? name rules).toList := by
  rw [collected, List.filterMap_cons, List.filterMap_nil]
  cases act.collected? name rules <;> rfl

/-- A report of a supported rule is collected unless the rule is off, and any other raises. -/
theorem performs_report (d : Diagnostic) :
    Performs inert name sev (report name sev d) [.report d] := by
  intro s reports hs
  rw [ending, firstRaised?_singleton, collected_singleton]
  obtain ⟨severity, hd⟩ : ∃ severity, sev.get? d.id = severity := ⟨_, rfl⟩
  simp only [report, Act.raised?, Act.collected?, hd]
  rcases severity with _ | _ | severity
  · refine ⟨s, reports, hs, rfl, ?_⟩
    intro h
    cases h
  · exact ⟨s, reports, hs, rfl, fun _ => (List.append_nil reports).symm⟩
  · exact ⟨s, _, hs, rfl, fun _ => rfl⟩

theorem performs_cancel (hi : inert) : Performs inert name sev cancelActing [.cancel] := by
  intro s reports hs
  -- either there is no token, or it is one that cannot be signalled
  have hinert : ((s.token.getD Token.none).cancel?) = none := by
    rcases s with ⟨_ | t, es⟩
    · rfl
    · have ht : t.cancelable = false := hs.inert hi t rfl
      simp [Token.cancel?, ht]
  refine ⟨s, reports, hs, ?_, ?_⟩
  · rw [cancelActing, run_bind_acting, run_get_acting]
    dsimp only
    rw [hinert]
    rfl
  · intro h
    cases h

theorem performs_raise (r : Raised) : Performs inert name sev (throw r) [.raise r] := by
  intro s reports hs
  refine ⟨s, reports, hs, rfl, ?_⟩
  intro h
  cases h

/-- Every act that cancels nothing is performed. -/
theorem performs_act {act : Act} (hact : act.Uncanceling inert) :
    Performs inert name sev (perform name sev act) [act] := by
  cases act with
  | report d => exact performs_report d
  | raise r => exact performs_raise r
  | cancel => exact performs_cancel hact

theorem performs_acts {acts : List Act} (h : ∀ act ∈ acts, act.Uncanceling inert) :
    Performs inert name sev (acts.forM (perform name sev)) acts := by
  have hall : Performs inert name sev (acts.forM (perform name sev)) (acts.flatMap fun act => [act]) :=
    Performs.forM fun act hact => performs_act (h act hact)
  rwa [List.flatMap_singleton'] at hall

theorem performs_visitNode {actions : Actions Action} {doc : Document} {node : Node}
    (h : ∀ action ∈ actions.of node.kind, ∀ act ∈ action doc node, act.Uncanceling inert) :
    Performs inert name sev (visitNode name sev actions doc node)
      ((actions.of node.kind).flatMap fun action => action doc node) :=
  performs_poll.bind (Performs.forM fun action haction => performs_acts (h action haction))

theorem performs_visitDocument {a : Analyzer} {doc : Document}
    (h : ∀ act ∈ a.actsIn doc, act.Uncanceling inert) :
    Performs inert a.name sev (visitDocument a sev doc) (a.actsIn doc) := by
  unfold visitDocument
  rw [Analyzer.actsIn] at h ⊢
  cases hstart : a.start with
  | error r => exact performs_raise r
  | ok actions =>
    rw [hstart] at h
    rw [Node.walk_eq_preorder]
    refine Performs.forM fun node hnode => performs_visitNode fun action haction act hact => h act ?_
    exact List.mem_flatMap.mpr ⟨node, hnode, List.mem_flatMap.mpr ⟨action, haction, hact⟩⟩

end Linter

end TierHost
