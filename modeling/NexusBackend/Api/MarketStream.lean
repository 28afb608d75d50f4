import NexusBackend.Core.Security
import NexusBackend.Library.Tasks
import NexusBackend.Library.Transition
import NexusBackend.Library.Utf8

/-!
`market_stream`: one WebSocket session between Redis and a browser.

The handler and its two tasks run in steps from await to await, in any order. A step of
the environment says what the awaited call returns or raises. A task that is cancelled ends
at its next step, in a way of its own. The handler may be cancelled at any of its awaits;
at the await of a cancelled task the cancellation goes to that task and is caught with it.
Logging is left out.
-/
namespace NexusBackend

open Python Transition

def webSocketDisconnect : ExnKind := .named (text "WebSocketDisconnect")

/-- The `data` of a message. -/
inductive Payload
  | str (data : Text)
  | bytes (data : List Nat)

/-- The text that goes to the client. -/
def Payload.toText : Payload → Text
  | str data => data
  | bytes data => Utf8.decode data

/-- What `pubsub.listen()` yields: a message, or the acknowledgement of a subscription. -/
inductive PubsubMessage
  | message (data : Payload)
  | ack (type : Text) (count : Int)

/-- `_ws_principal`. -/
def wsPrincipal (settings : AuthSettings) (token : Option Text) : Option Principal :=
  if settings.appEnv = .development ∧ settings.hasEntraConfig = false then
    some { subject := text "anonymous", tenant := text "dev" }
  else
    match token with
    | none | some [] => none
    | some _ => none

/-! ### The session -/

inductive StreamTask
  | forward
  | detect
deriving DecidableEq

/-- The await at which the handler stands; in the `finally` block, with what it will end in. -/
inductive StreamPhase
  | entering
  | refusing
  | accepting
  | subscribing
  | waiting
  | draining (task : StreamTask)
  | unsubscribing (outcome : TaskEnd)
  | closing (outcome : TaskEnd)
  | ended (outcome : TaskEnd)
deriving DecidableEq

structure StreamSession where
  phase : StreamPhase := .entering
  accepted : Bool := false
  forward : TaskStatus := .unset
  detect : TaskStatus := .unset
  forwardCancelled : Bool := false
  detectCancelled : Bool := false
  sending : Option Text := none
  unsubscribeTried : Bool := false
  closeTried : Bool := false
deriving DecidableEq

inductive StreamLabel
  | enter (settings : AuthSettings) (token : Option Text)
  | refused (result : Except Exn Unit)
  | accepted (result client : Except Exn Unit)
  | subscribed (result : Except Exn Unit)
  | message (m : PubsubMessage)
  | listenEnded (result : Except Exn Unit)
  | sent (result : Except Exn Unit)
  | clientFrame (result : Except Exn Text)
  | taskCancelled (task : StreamTask) (how : TaskEnd)
  | wake
  | drained
  | unsubscribed (result : Except Exn Unit)
  | closed (result : Except Exn Unit)
  | cancel

inductive StreamEvent
  | received (m : PubsubMessage)
  | sending (t : Text)
  | sent (t : Text)

namespace StreamSession

def leave (s : StreamSession) (outcome : TaskEnd) : StreamSession :=
  { s with phase := .ended outcome }

/-- The `finally` block up to its first await. -/
def finish (s : StreamSession) (outcome : TaskEnd) : StreamSession :=
  { s with phase := .unsubscribing outcome, unsubscribeTried := true }

/-- How the body of a task ends: both tasks catch `WebSocketDisconnect`. -/
def bodyEnd : Except Exn Unit → TaskEnd
  | .ok () => .returned
  | .error e => if e.isInstance [webSocketDisconnect] then .returned else .raised e

def status (s : StreamSession) : StreamTask → TaskStatus
  | .forward => s.forward
  | .detect => s.detect

/-- What the handler ends in behind `await t`, where only the two caught classes pass. -/
def drainedAs : TaskEnd → TaskEnd
  | .raised e => bodyEnd (.error e)
  | _ => .returned

/-- `asyncio.wait` returns: the task that still runs is cancelled. -/
def wake (s : StreamSession) : Option StreamSession :=
  match s.forward.isRunning, s.detect.isRunning with
  | true, true => none
  | true, false => some { s with phase := .draining .forward, forwardCancelled := true }
  | false, true => some { s with phase := .draining .detect, detectCancelled := true }
  | false, false => some (s.finish .returned)

/-- The cancellation of the handler at the await where it stands. -/
def cancel (s : StreamSession) : Option StreamSession :=
  match s.phase with
  | .entering | .refusing | .accepting | .subscribing => some (s.leave .cancelled)
  | .waiting => some (s.finish .cancelled)
  | .draining task =>
      if (s.status task).isRunning then some s else some (s.finish .returned)
  | .unsubscribing _ | .closing _ => some (s.leave .cancelled)
  | .ended _ => none

def stepForward (s : StreamSession) : StreamLabel → Option (StreamSession × List StreamEvent)
  | .message m =>
      match s.sending with
      | some _ => none
      | none =>
          match m with
          | .ack type count => some (s, [.received (.ack type count)])
          | .message data =>
              some ({ s with sending := some data.toText },
                [.received (.message data), .sending data.toText])
  | .listenEnded result =>
      if s.sending = none then some ({ s with forward := .ended (bodyEnd result) }, []) else none
  | .sent result =>
      match s.sending with
      | none => none
      | some t =>
          match result with
          | .ok () => some ({ s with sending := none }, [.sent t])
          | .error e =>
              some ({ s with sending := none, forward := .ended (bodyEnd (.error e)) }, [])
  | _ => none

def stepHandler (s : StreamSession) : StreamPhase → StreamLabel → Option StreamSession
  | .entering, .enter settings token =>
      some { s with phase := if (wsPrincipal settings token).isSome then .accepting else .refusing }
  | .refusing, .refused (.ok ()) => some (s.leave .returned)
  | .refusing, .refused (.error e) => some (s.leave (.raised e))
  | .accepting, .accepted (.error e) _ => some (s.leave (.raised e))
  | .accepting, .accepted (.ok ()) (.error e) => some { s.leave (.raised e) with accepted := true }
  | .accepting, .accepted (.ok ()) (.ok ()) =>
      some { s with phase := .subscribing, accepted := true }
  | .subscribing, .subscribed (.error e) => some (s.leave (.raised e))
  | .subscribing, .subscribed (.ok ()) =>
      some { s with phase := .waiting, forward := .running, detect := .running }
  | .waiting, .wake => s.wake
  | .draining task, .drained =>
      match s.status task with
      | .ended how => some (s.finish (drainedAs how))
      | _ => none
  | .unsubscribing outcome, .unsubscribed _ =>
      some { s with phase := .closing outcome, closeTried := true }
  | .closing outcome, .closed _ => some (s.leave outcome)
  | _, _ => none

def step (s : StreamSession) : StreamLabel → Option (StreamSession × List StreamEvent)
  | .cancel => (·, []) <$> s.cancel
  | .message m =>
      if s.forward = .running ∧ s.forwardCancelled = false then s.stepForward (.message m) else none
  | .listenEnded result =>
      if s.forward = .running ∧ s.forwardCancelled = false then s.stepForward (.listenEnded result)
      else none
  | .sent result =>
      if s.forward = .running ∧ s.forwardCancelled = false then s.stepForward (.sent result)
      else none
  | .clientFrame result =>
      if s.detect = .running ∧ s.detectCancelled = false then
        match result with
        | .ok _ => some (s, [])
        | .error e => some ({ s with detect := .ended (bodyEnd (.error e)) }, [])
      else none
  | .taskCancelled .forward how =>
      if s.forward = .running ∧ s.forwardCancelled = true then
        some ({ s with forward := .ended how, sending := none }, [])
      else none
  | .taskCancelled .detect how =>
      if s.detect = .running ∧ s.detectCancelled = true then
        some ({ s with detect := .ended how }, [])
      else none
  | l => (·, []) <$> s.stepHandler s.phase l

end StreamSession

def marketStream : Machine StreamSession StreamLabel StreamEvent := ⟨StreamSession.step⟩

/-! ### What the client is sent -/

namespace StreamEvent

def payload? : StreamEvent → Option Text
  | received (.message data) => some data.toText
  | _ => none

def attempt? : StreamEvent → Option Text
  | sending t => some t
  | _ => none

def delivery? : StreamEvent → Option Text
  | sent t => some t
  | _ => none

end StreamEvent

/-- The payloads of the messages received. -/
def payloads (tr : List StreamEvent) : List Text := tr.filterMap StreamEvent.payload?

/-- The texts given to `send_text`. -/
def attempts (tr : List StreamEvent) : List Text := tr.filterMap StreamEvent.attempt?

/-- The texts that `send_text` has sent. -/
def deliveries (tr : List StreamEvent) : List Text := tr.filterMap StreamEvent.delivery?

theorem payloads_append (tr es : List StreamEvent) :
    payloads (tr ++ es) = payloads tr ++ payloads es := List.filterMap_append

theorem attempts_append (tr es : List StreamEvent) :
    attempts (tr ++ es) = attempts tr ++ attempts es := List.filterMap_append

theorem deliveries_append (tr es : List StreamEvent) :
    deliveries (tr ++ es) = deliveries tr ++ deliveries es := List.filterMap_append

/-- Before the tasks are created. -/
def StreamPhase.isEarly : StreamPhase → Bool
  | entering | refusing | accepting | subscribing => true
  | _ => false

namespace StreamSession

/-- What a step can be: one of the forward task, a cancellation of the handler, the handler
going on, the forward task ending of its cancellation, or the other task with at most its end. -/
theorem step_cases {s s' : StreamSession} {l : StreamLabel} {es : List StreamEvent}
    (hs : s.step l = some (s', es)) :
    (s.forward = .running ∧ s.stepForward l = some (s', es)) ∨
    (es = [] ∧ l = .cancel ∧ s.cancel = some s') ∨
    (es = [] ∧ s.stepHandler s.phase l = some s') ∨
    (es = [] ∧ s.forward = .running ∧
      ∃ how, s' = { s with forward := .ended how, sending := none }) ∨
    (es = [] ∧ ∃ status : TaskStatus, s' = { s with detect := status } ∧
      (s.detect.isRunning = false → status.isRunning = false)) := by
  have hhandler (hl : (·, []) <$> s.stepHandler s.phase l = some (s', es)) :
      es = [] ∧ s.stepHandler s.phase l = some s' := by
    obtain ⟨s'', hstep, heq⟩ := Option.map_eq_some_iff.mp hl
    cases heq
    exact ⟨rfl, hstep⟩
  have hforward (hl : (if s.forward = .running ∧ s.forwardCancelled = false then s.stepForward l
      else none) = some (s', es)) : s.forward = .running ∧ s.stepForward l = some (s', es) := by
    rw [Option.ite_none_right_eq_some] at hl
    exact ⟨hl.1.1, hl.2⟩
  cases l with
  | cancel =>
      obtain ⟨s'', hstep, heq⟩ := Option.map_eq_some_iff.mp hs
      cases heq
      exact .inr (.inl ⟨rfl, rfl, hstep⟩)
  | message m => exact .inl (hforward hs)
  | listenEnded result => exact .inl (hforward hs)
  | sent result => exact .inl (hforward hs)
  | clientFrame result =>
      simp only [StreamSession.step, Option.ite_none_right_eq_some] at hs
      obtain ⟨-, hs⟩ := hs
      cases result with
      | ok t =>
          cases hs
          exact .inr (.inr (.inr (.inr ⟨rfl, _, rfl, id⟩)))
      | error e =>
          cases hs
          exact .inr (.inr (.inr (.inr ⟨rfl, _, rfl, fun _ => rfl⟩)))
  | taskCancelled task how =>
      cases task with
      | forward =>
          simp only [StreamSession.step, Option.ite_none_right_eq_some] at hs
          obtain ⟨⟨hrun, -⟩, hs⟩ := hs
          cases hs
          exact .inr (.inr (.inr (.inl ⟨rfl, hrun, how, rfl⟩)))
      | detect =>
          simp only [StreamSession.step, Option.ite_none_right_eq_some] at hs
          obtain ⟨-, hs⟩ := hs
          cases hs
          exact .inr (.inr (.inr (.inr ⟨rfl, _, rfl, fun _ => rfl⟩)))
  | _ => exact .inr (.inr (.inl (hhandler hs)))

/-- The text in flight completes what was received, unless the task has ended. -/
structure Relayed (s : StreamSession) (tr : List StreamEvent) : Prop where
  early : s.phase.isEarly = true → s.forward = .unset
  attempted : attempts tr = payloads tr
  flow : deliveries tr ++ s.sending.toList = payloads tr ∨
    (∃ how, s.forward = .ended how) ∧ deliveries tr <+: payloads tr

theorem Relayed.delivered {s : StreamSession} {tr : List StreamEvent} (h : s.Relayed tr) :
    deliveries tr <+: payloads tr := by
  rcases h.flow with hflow | ⟨-, hpre⟩
  · exact ⟨_, hflow⟩
  · exact hpre

/-- A running task has not ended. -/
theorem Relayed.in_flight {s : StreamSession} {tr : List StreamEvent} (h : s.Relayed tr)
    (hrun : s.forward = .running) : deliveries tr ++ s.sending.toList = payloads tr := by
  refine h.flow.resolve_right ?_
  rintro ⟨⟨how, hended⟩, -⟩
  rw [hrun] at hended
  cases hended

theorem Relayed.stepForward {s s' : StreamSession} {l : StreamLabel} {tr es : List StreamEvent}
    (h : s.Relayed tr) (hrun : s.forward = .running) (hs : s.stepForward l = some (s', es)) :
    s'.Relayed (tr ++ es) := by
  have hnever {status : TaskStatus} (hearly : s.phase.isEarly = true) : status = .unset := by
    rw [h.early hearly] at hrun
    cases hrun
  have hflow := h.in_flight hrun
  cases l with
  | message m =>
      cases hsending : s.sending with
      | some t =>
          simp only [StreamSession.stepForward, hsending] at hs
          cases hs
      | none =>
          simp only [StreamSession.stepForward, hsending] at hs
          rw [hsending] at hflow
          cases m with
          | ack type count =>
              cases hs
              refine ⟨h.early, ?_, .inl ?_⟩
              · rw [attempts_append, payloads_append, h.attempted]
                rfl
              · rw [deliveries_append, payloads_append]
                change (deliveries tr ++ []) ++ s.sending.toList = payloads tr ++ []
                rw [List.append_nil, List.append_nil, hsending]
                exact hflow
          | message data =>
              cases hs
              refine ⟨h.early, ?_, .inl ?_⟩
              · rw [attempts_append, payloads_append, h.attempted]
                rfl
              · rw [deliveries_append, payloads_append]
                change (deliveries tr ++ []) ++ [data.toText] = payloads tr ++ [data.toText]
                rw [← hflow]
                rfl
  | listenEnded result =>
      rw [StreamSession.stepForward, Option.ite_none_right_eq_some] at hs
      obtain ⟨-, hs⟩ := hs
      cases hs
      rw [List.append_nil]
      exact ⟨hnever, h.attempted, .inr ⟨⟨_, rfl⟩, h.delivered⟩⟩
  | sent result =>
      cases hsending : s.sending with
      | none =>
          simp only [StreamSession.stepForward, hsending] at hs
          cases hs
      | some t =>
          simp only [StreamSession.stepForward, hsending] at hs
          rw [hsending] at hflow
          cases result with
          | ok u =>
              cases hs
              refine ⟨h.early, ?_, .inl ?_⟩
              · rw [attempts_append, payloads_append, h.attempted]
                rfl
              · rw [deliveries_append, payloads_append]
                change (deliveries tr ++ [t]) ++ [] = payloads tr ++ []
                rw [List.append_nil, List.append_nil]
                exact hflow
          | error e =>
              cases hs
              rw [List.append_nil]
              exact ⟨hnever, h.attempted, .inr ⟨⟨_, rfl⟩, h.delivered⟩⟩
  | _ => cases hs

/-- A step of the handler or of the other task. -/
theorem Relayed.frame {s s' : StreamSession} {tr : List StreamEvent} (h : s.Relayed tr)
    (hearly : s'.phase.isEarly = true → s'.forward = .unset) (hsending : s'.sending = s.sending)
    (hended : ∀ how, s.forward = .ended how → s'.forward = .ended how) : s'.Relayed tr := by
  refine ⟨hearly, h.attempted, ?_⟩
  rw [hsending]
  refine h.flow.imp_right ?_
  rintro ⟨⟨how, hhow⟩, hpre⟩
  exact ⟨⟨how, hended how hhow⟩, hpre⟩

theorem Relayed.wake {s s' : StreamSession} {tr : List StreamEvent} (h : s.Relayed tr)
    (hs : s.wake = some s') : s'.Relayed tr := by
  rw [StreamSession.wake] at hs
  split at hs
  all_goals try
    cases hs
    exact h.frame nofun rfl fun _ hhow => hhow
  cases hs

theorem Relayed.cancel {s s' : StreamSession} {tr : List StreamEvent} (h : s.Relayed tr)
    (hs : s.cancel = some s') : s'.Relayed tr := by
  rw [StreamSession.cancel] at hs
  split at hs
  all_goals try
    cases hs
    exact h.frame nofun rfl fun _ hhow => hhow
  · split at hs
    · cases hs
      exact h
    · cases hs
      exact h.frame nofun rfl fun _ hhow => hhow
  · cases hs

theorem Relayed.stepHandler {s s' : StreamSession} {l : StreamLabel} {tr : List StreamEvent}
    (h : s.Relayed tr) (hs : s.stepHandler s.phase l = some s') : s'.Relayed tr := by
  have hearly := h.early
  rw [StreamSession.stepHandler.eq_def] at hs
  split at hs
  · rename_i hphase
    cases hs
    rw [hphase] at hearly
    exact h.frame (fun _ => hearly rfl) rfl fun _ hhow => hhow
  · cases hs
    exact h.frame nofun rfl fun _ hhow => hhow
  · cases hs
    exact h.frame nofun rfl fun _ hhow => hhow
  · cases hs
    exact h.frame nofun rfl fun _ hhow => hhow
  · cases hs
    exact h.frame nofun rfl fun _ hhow => hhow
  · rename_i hphase
    cases hs
    rw [hphase] at hearly
    exact h.frame (fun _ => hearly rfl) rfl fun _ hhow => hhow
  · cases hs
    exact h.frame nofun rfl fun _ hhow => hhow
  · rename_i hphase
    cases hs
    rw [hphase] at hearly
    refine h.frame nofun rfl fun how hhow => ?_
    rw [hearly rfl] at hhow
    cases hhow
  · exact h.wake hs
  · split at hs
    · cases hs
      exact h.frame nofun rfl fun _ hhow => hhow
    · cases hs
  · cases hs
    exact h.frame nofun rfl fun _ hhow => hhow
  · cases hs
    exact h.frame nofun rfl fun _ hhow => hhow
  · cases hs

theorem Relayed.step {s s' : StreamSession} {l : StreamLabel} {tr es : List StreamEvent}
    (h : s.Relayed tr) (hs : s.step l = some (s', es)) : s'.Relayed (tr ++ es) := by
  obtain ⟨hrun, hforward⟩ | ⟨rfl, rfl, hcancel⟩ | ⟨rfl, hhandler⟩ | ⟨rfl, hrun, how, rfl⟩ |
    ⟨rfl, status, rfl, -⟩ := step_cases hs
  · exact h.stepForward hrun hforward
  · rw [List.append_nil]
    exact h.cancel hcancel
  · rw [List.append_nil]
    exact h.stepHandler hhandler
  · rw [List.append_nil]
    refine ⟨fun hearly => ?_, h.attempted, .inr ⟨⟨how, rfl⟩, h.delivered⟩⟩
    rw [h.early hearly] at hrun
    cases hrun
  · rw [List.append_nil]
    exact h.frame h.early rfl fun _ hhow => hhow

/-! ### What is released -/

/-- Neither task runs, and the subscription has been given back. -/
structure Released (s : StreamSession) : Prop where
  forward : s.forward.isRunning = false
  detect : s.detect.isRunning = false
  unsubscribed : s.unsubscribeTried = true
  closed : s.closeTried = true

/-- The step leaves nothing behind: the Redis client is there and the subscription succeeds,
and no cancellation reaches the handler while it subscribes or unsubscribes, or while it
waits for a task that runs. -/
def Orderly (s : StreamSession) : StreamLabel → Prop
  | .accepted (.ok ()) client => client = .ok ()
  | .subscribed result => result = .ok ()
  | .cancel =>
      match s.phase with
      | .subscribing | .unsubscribing _ => False
      | .waiting => s.forward.isRunning = false ∧ s.detect.isRunning = false
      | _ => True
  | _ => True

instance (s : StreamSession) (l : StreamLabel) : Decidable (s.Orderly l) := by
  unfold Orderly
  split
  · infer_instance
  · infer_instance
  · split <;> infer_instance
  · infer_instance

/-- What each phase has released so far. -/
def Tidy (s : StreamSession) : Prop :=
  match s.phase with
  | .entering | .refusing | .accepting => s.accepted = false
  | .subscribing | .waiting => True
  | .draining .forward => s.detect.isRunning = false
  | .draining .detect => s.forward.isRunning = false
  | .unsubscribing _ => s.forward.isRunning = false ∧ s.detect.isRunning = false ∧
      s.unsubscribeTried = true
  | .closing _ => s.Released
  | .ended _ => s.accepted = true → s.Released

/-- A step of a task: it may end, and nothing else changes. -/
structure TaskStep (s s' : StreamSession) : Prop where
  phase : s'.phase = s.phase
  accepted : s'.accepted = s.accepted
  forward : s.forward.isRunning = false → s'.forward.isRunning = false
  detect : s.detect.isRunning = false → s'.detect.isRunning = false
  unsubscribed : s'.unsubscribeTried = s.unsubscribeTried
  closed : s'.closeTried = s.closeTried

theorem Released.taskStep {s s' : StreamSession} (h : s.Released) (ht : TaskStep s s') :
    s'.Released :=
  ⟨ht.forward h.forward, ht.detect h.detect, ht.unsubscribed.trans h.unsubscribed,
    ht.closed.trans h.closed⟩

theorem Tidy.taskStep {s s' : StreamSession} (h : s.Tidy) (ht : TaskStep s s') : s'.Tidy := by
  unfold Tidy at h ⊢
  rw [ht.phase]
  split at h
  · exact ht.accepted.trans h
  · exact ht.accepted.trans h
  · exact ht.accepted.trans h
  · trivial
  · trivial
  · exact ht.detect h
  · exact ht.forward h
  · exact ⟨ht.forward h.1, ht.detect h.2.1, ht.unsubscribed.trans h.2.2⟩
  · exact h.taskStep ht
  · intro haccepted
    exact (h (ht.accepted.symm.trans haccepted)).taskStep ht

theorem stepForward_taskStep {s s' : StreamSession} {l : StreamLabel} {es : List StreamEvent}
    (hrun : s.forward = .running) (hs : s.stepForward l = some (s', es)) : TaskStep s s' := by
  have hnot {status : TaskStatus} (h : s.forward.isRunning = false) : status.isRunning = false := by
    rw [hrun] at h
    cases h
  rw [stepForward.eq_def] at hs
  split at hs
  · split at hs
    · cases hs
    · split at hs
      · cases hs
        exact ⟨rfl, rfl, hnot, id, rfl, rfl⟩
      · cases hs
        exact ⟨rfl, rfl, hnot, id, rfl, rfl⟩
  · rw [Option.ite_none_right_eq_some] at hs
    obtain ⟨-, hs⟩ := hs
    cases hs
    exact ⟨rfl, rfl, hnot, id, rfl, rfl⟩
  · split at hs
    · cases hs
    · split at hs
      · cases hs
        exact ⟨rfl, rfl, hnot, id, rfl, rfl⟩
      · cases hs
        exact ⟨rfl, rfl, hnot, id, rfl, rfl⟩
  · cases hs

theorem Tidy.wake {s s' : StreamSession} (hs : s.wake = some s') : s'.Tidy := by
  rw [StreamSession.wake] at hs
  split at hs
  · cases hs
  · rename_i hdetect
    cases hs
    exact hdetect
  · rename_i hforward _
    cases hs
    exact hforward
  · rename_i hforward hdetect
    cases hs
    exact ⟨hforward, hdetect, rfl⟩

/-- The task that the handler waits for has ended, and the other one before it. -/
theorem Tidy.drained {s : StreamSession} {task : StreamTask} (h : s.Tidy)
    (hphase : s.phase = .draining task) (hstatus : (s.status task).isRunning = false)
    (outcome : TaskEnd) : (s.finish outcome).Tidy := by
  rw [Tidy, hphase] at h
  cases task with
  | forward => exact ⟨hstatus, h, rfl⟩
  | detect => exact ⟨h, hstatus, rfl⟩

theorem Tidy.cancel {s s' : StreamSession} (h : s.Tidy) (ho : s.Orderly .cancel)
    (hs : s.cancel = some s') : s'.Tidy := by
  rw [Orderly] at ho
  rw [StreamSession.cancel] at hs
  cases hphase : s.phase with
  | entering =>
      rw [hphase] at hs
      rw [Tidy, hphase] at h
      cases hs
      exact fun haccepted => absurd (h.symm.trans haccepted) Bool.false_ne_true
  | refusing =>
      rw [hphase] at hs
      rw [Tidy, hphase] at h
      cases hs
      exact fun haccepted => absurd (h.symm.trans haccepted) Bool.false_ne_true
  | accepting =>
      rw [hphase] at hs
      rw [Tidy, hphase] at h
      cases hs
      exact fun haccepted => absurd (h.symm.trans haccepted) Bool.false_ne_true
  | subscribing =>
      rw [hphase] at ho
      exact ho.elim
  | waiting =>
      rw [hphase] at hs ho
      cases hs
      exact ⟨ho.1, ho.2, rfl⟩
  | draining task =>
      rw [hphase] at hs
      dsimp only at hs
      split at hs
      · cases hs
        exact h
      · rename_i hrun
        cases hs
        exact h.drained hphase (Bool.eq_false_iff.mpr hrun) _
  | unsubscribing outcome =>
      rw [hphase] at ho
      exact ho.elim
  | closing outcome =>
      rw [hphase] at hs
      rw [Tidy, hphase] at h
      cases hs
      exact fun _ => ⟨h.forward, h.detect, h.unsubscribed, h.closed⟩
  | ended outcome =>
      rw [hphase] at hs
      cases hs

theorem Tidy.stepHandler {s s' : StreamSession} {l : StreamLabel} (h : s.Tidy)
    (ho : s.Orderly l) (hs : s.stepHandler s.phase l = some s') : s'.Tidy := by
  have htidy := h
  rw [StreamSession.stepHandler.eq_def] at hs
  split at hs
  · rename_i settings token hphase
    cases hs
    rw [Tidy, hphase] at h
    cases hprincipal : (wsPrincipal settings token).isSome with
    | true => simpa [Tidy, hprincipal] using h
    | false => simpa [Tidy, hprincipal] using h
  · rename_i hphase
    cases hs
    rw [Tidy, hphase] at h
    exact fun haccepted => absurd (h.symm.trans haccepted) Bool.false_ne_true
  · rename_i hphase
    cases hs
    rw [Tidy, hphase] at h
    exact fun haccepted => absurd (h.symm.trans haccepted) Bool.false_ne_true
  · rename_i hphase
    cases hs
    rw [Tidy, hphase] at h
    exact fun haccepted => absurd (h.symm.trans haccepted) Bool.false_ne_true
  · cases ho
  · cases hs
    trivial
  · cases ho
  · cases hs
    trivial
  · exact Tidy.wake hs
  · rename_i hphase
    split at hs
    · rename_i how hstatus
      cases hs
      refine htidy.drained hphase ?_ _
      rw [hstatus]
      rfl
    · cases hs
  · rename_i hphase
    cases hs
    rw [Tidy, hphase] at h
    exact ⟨h.1, h.2.1, h.2.2, rfl⟩
  · rename_i hphase
    cases hs
    rw [Tidy, hphase] at h
    exact fun _ => ⟨h.forward, h.detect, h.unsubscribed, h.closed⟩
  · cases hs

theorem Tidy.step {s s' : StreamSession} {l : StreamLabel} {es : List StreamEvent}
    (h : s.Tidy) (ho : s.Orderly l) (hs : s.step l = some (s', es)) : s'.Tidy := by
  obtain ⟨hrun, hforward⟩ | ⟨rfl, rfl, hcancel⟩ | ⟨rfl, hhandler⟩ | ⟨rfl, -, how, rfl⟩ |
    ⟨rfl, status, rfl, hstatus⟩ := step_cases hs
  · exact h.taskStep (stepForward_taskStep hrun hforward)
  · exact h.cancel ho hcancel
  · exact h.stepHandler ho hhandler
  · exact h.taskStep ⟨rfl, rfl, fun _ => rfl, id, rfl, rfl⟩
  · exact h.taskStep ⟨rfl, rfl, id, hstatus, rfl, rfl⟩

end StreamSession

open Machine

/-- In every run the texts sent are a prefix of the payloads received. A run whose steps are
all orderly leaves no task and no subscription behind. -/
theorem marketStream_released {ls : List StreamLabel} {t : StreamSession} {tr : List StreamEvent}
    (hr : marketStream.run {} ls = some (t, tr)) :
    (attempts tr = payloads tr ∧ deliveries tr <+: payloads tr) ∧
      (marketStream.Along StreamSession.Orderly {} ls →
        ∀ outcome, t.phase = .ended outcome → t.accepted = true → t.Released) := by
  have hrelayed : t.Relayed tr :=
    run_invariant (I := StreamSession.Relayed) (fun _ _ _ _ _ h hs => h.step hs)
      ⟨fun _ => rfl, rfl, .inl rfl⟩ hr
  refine ⟨⟨hrelayed.attempted, hrelayed.delivered⟩, fun ho outcome hphase haccepted => ?_⟩
  have hstart : StreamSession.Tidy {} := rfl
  have htidy : t.Tidy :=
    @run_invariant_along _ _ _ marketStream _ (fun s _ => s.Tidy)
      (fun _ _ _ _ _ ho h hs => h.step ho hs) _ _ _ _ [] hstart ho hr
  rw [StreamSession.Tidy, hphase] at htidy
  exact htidy haccepted

/-- The browser reads one message and goes away. -/
def StreamLabel.visit : List StreamLabel :=
  [.enter {} none, .accepted (.ok ()) (.ok ()), .subscribed (.ok ()),
    .message (.message (.str (text "tick"))), .sent (.ok ()),
    .clientFrame (raise webSocketDisconnect), .wake, .taskCancelled .forward .cancelled, .drained,
    .unsubscribed (.ok ()), .closed (.ok ())]

theorem marketStream_released_visit :
    ∃ t tr, marketStream.run {} StreamLabel.visit = some (t, tr) ∧
      deliveries tr = [text "tick"] ∧ t.Released := by
  have hr : marketStream.run {} StreamLabel.visit = some
      (⟨.ended .returned, true, .ended .cancelled, .ended .returned, true, false, none, true, true⟩,
        [.received (.message (.str (text "tick"))), .sending (text "tick"),
          .sent (text "tick")]) := rfl
  exact ⟨_, _, hr, rfl, (marketStream_released hr).2 (by decide) .returned rfl rfl⟩

/-- The handler is cancelled while it waits for its tasks. -/
def StreamLabel.shutdown : List StreamLabel :=
  [.enter {} none, .accepted (.ok ()) (.ok ()), .subscribed (.ok ()), .cancel,
    .unsubscribed (.ok ()), .closed (.ok ())]

theorem marketStream_shutdown :
    ∃ t tr, marketStream.run {} StreamLabel.shutdown = some (t, tr) ∧
      t.phase = .ended .cancelled ∧ t.accepted = true ∧ t.forward = .running ∧
      t.detect = .running :=
  ⟨_, _, rfl, rfl, rfl, rfl, rfl⟩

end NexusBackend
