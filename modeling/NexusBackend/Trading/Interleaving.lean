import NexusBackend.Trading.SequentialRuns

/-!
Ticks that overlap. Several publishers call the same `on_tick`; each call is a
task that runs without interruption from one `await` to the next, and any task
may run between. The state of a task is the `await` it stands at with the local
variables of `_process`. Every `await` may suspend here, also one that the
collaborator answers at once, so the runs include those of the event loop.
-/
namespace NexusBackend

open Python Transition

/-- The `await` a tick stands at. -/
inductive TickPhase (W : Type*)
  | coordinator
  | guard (signal : TradeSignal) (current : OrderGuardrail W) (rest : List (OrderGuardrail W))
  | broker (signal : TradeSignal) (guarded : GuardedSignal) (call : OrderCall)
      (executeAt : UtcTime)
  | audit (envelope : AuditEnvelope)

/-- One call of `on_tick`: its tick, the snapshot it took, and where it stands. -/
structure TickTask (W : Type*) where
  tick : Tick
  context : GuardContext
  phase : TickPhase W

/-- What a task does between two awaits: the pipeline after it, the next phase
where it suspends again, and the events. -/
structure Advance (W : Type*) where
  pipeline : PipelineState
  next : Option (TickPhase W)
  events : List PipelineEvent

structure InterleavedState (W : Type*) where
  pipeline : PipelineState
  tasks : Nat → Option (TickTask W)
  clock : Int

/-- A tick arrives, or the awaited call of a task returns. The clock readings are
those the task takes before it suspends again. -/
inductive TickLabel (W : Type*)
  | arrive (task : Nat) (tick : Tick) (snapshotAt : UtcTime)
  | resume (task : Nat) (world : W) (signalAt executeAt : UtcTime)

def InterleavedState.initial {W : Type*} (context : TickContext) (clock : Int) :
    InterleavedState W := ⟨.initial context, fun _ => none, clock⟩

namespace TradingPipeline

variable {W : Type*} (p : TradingPipeline W)

/-- The exception handler of `on_tick`. -/
def failed (s : PipelineState) (events : List PipelineEvent) : Advance W :=
  ⟨{ s with errorCount := s.errorCount + 1 }, none, events⟩

/-- From the result of the executor to the audit publisher. -/
def toAudit (s : PipelineState) (signal : TradeSignal) (guarded : GuardedSignal)
    (result : ExecutionResult) (before : List PipelineEvent) : Advance W :=
  match applyResult s result with
  | .error _ => failed s before
  | .ok (s', fills) =>
      match p.auditPublisher with
      | none => ⟨s', none, before ++ fills⟩
      | some _ =>
          let envelope := buildAuditEnvelope signal guarded result
          ⟨s', some (.audit envelope), before ++ fills ++ [.publishAudit envelope]⟩

/-- From the verdict of the guards to the broker, or past it. -/
def toBroker (s : PipelineState) (w : W) (signal : TradeSignal) (guarded : GuardedSignal)
    (executeAt : UtcTime) : Advance W :=
  match p.executor.plan w guarded executeAt with
  | .error _ => failed s []
  | .ok (.done result) => p.toAudit s signal guarded result []
  | .ok (.order call) => ⟨s, some (.broker signal guarded call executeAt), [.placeOrder call]⟩

/-- To the next guard, or past the last one. -/
def toGuards (s : PipelineState) (w : W) (signal : TradeSignal) (executeAt : UtcTime) :
    List (OrderGuardrail W) → Advance W
  | [] => p.toBroker s w signal (GuardrailPipeline.allow signal) executeAt
  | guard :: rest => ⟨s, some (.guard signal guard rest), []⟩

/-- From one `await` to the next, with the answer that the world `w` gives. -/
def advance (s : PipelineState) (task : TickTask W) (w : W) (signalAt executeAt : UtcTime) :
    Advance W :=
  match task.phase with
  | .coordinator =>
      let signal := p.coordinator.evaluate w task.tick.symbol signalAt
      if signal.action = .hold then
        p.toBroker s w signal (GuardrailPipeline.allow signal) executeAt
      else p.toGuards s w signal executeAt p.guardrails.guards
  | .guard signal guard rest =>
      match guard.check w signal task.context with
      | .error _ => failed s []
      | .ok decision =>
          if !decision.allowed then
            p.toBroker s w signal
              (GuardrailPipeline.block signal guard.guardId decision.reason) executeAt
          else p.toGuards s w signal executeAt rest
  | .broker signal guarded call executeAt =>
      let outcome := p.executor.orderClient.placeOrder w call
      p.toAudit s signal guarded (OrderExecutor.settle call executeAt outcome)
        [.orderReturned call outcome]
  | .audit envelope =>
      match p.auditPublisher with
      | none => ⟨s, none, []⟩
      | some publish =>
          match publish w envelope with
          | .ok _ => ⟨s, none, []⟩
          | .error _ => ⟨{ s with auditFailureCount := s.auditFailureCount + 1 }, none, []⟩

/-- The start of `on_tick`, up to the coordinator. -/
def begin (s : PipelineState) (tick : Tick) (snapshotAt : UtcTime) :
    PipelineState × TickTask W :=
  let s := s.countTick.record tick
  (s, ⟨tick, p.guardContext s tick snapshotAt, .coordinator⟩)

def interleavedStep (s : InterleavedState W) :
    TickLabel W → Option (InterleavedState W × List PipelineEvent)
  | .arrive id tick snapshotAt =>
      match s.tasks id with
      | some _ => none
      | none =>
          let started := p.begin s.pipeline tick snapshotAt
          some (⟨started.1, Function.update s.tasks id (some started.2), snapshotAt.instant⟩, [])
  | .resume id w signalAt executeAt =>
      match s.tasks id with
      | none => none
      | some task =>
          let a := p.advance s.pipeline task w signalAt executeAt
          some (⟨a.pipeline,
            Function.update s.tasks id (a.next.map fun phase => { task with phase := phase }),
            executeAt.instant⟩, a.events)

def interleaved : Machine (InterleavedState W) (TickLabel W) PipelineEvent :=
  ⟨p.interleavedStep⟩

/-! ### What one step can be -/

inductive Stepped (s t : InterleavedState W) (es : List PipelineEvent) : TickLabel W → Prop
  | arrive (id : Nat) (tick : Tick) (snapshotAt : UtcTime) (free : s.tasks id = none)
      (next : t = ⟨(p.begin s.pipeline tick snapshotAt).1,
        Function.update s.tasks id (some (p.begin s.pipeline tick snapshotAt).2),
        snapshotAt.instant⟩)
      (quiet : es = []) : Stepped s t es (.arrive id tick snapshotAt)
  | resume (id : Nat) (w : W) (signalAt executeAt : UtcTime) (task : TickTask W)
      (runs : s.tasks id = some task)
      (next : t = ⟨(p.advance s.pipeline task w signalAt executeAt).pipeline,
        Function.update s.tasks id
          ((p.advance s.pipeline task w signalAt executeAt).next.map fun phase =>
            { task with phase := phase }),
        executeAt.instant⟩)
      (events : es = (p.advance s.pipeline task w signalAt executeAt).events) :
      Stepped s t es (.resume id w signalAt executeAt)

theorem stepped {p : TradingPipeline W} {s t : InterleavedState W} {l : TickLabel W}
    {es : List PipelineEvent} (h : p.interleavedStep s l = some (t, es)) : p.Stepped s t es l := by
  cases l with
  | arrive id tick snapshotAt =>
      simp only [interleavedStep] at h
      split at h
      · cases h
      · rename_i hfree
        cases h
        exact .arrive id tick snapshotAt hfree rfl rfl
  | resume id w signalAt executeAt =>
      simp only [interleavedStep] at h
      split at h
      · cases h
      · rename_i task htask
        cases h
        exact .resume id w signalAt executeAt task htask rfl rfl

/-! ### What one advance can do -/

/-- An advance that records no fill. -/
structure Quiet (s : PipelineState) (a : Advance W) : Prop where
  fills : fillsOf a.events = []
  portfolio : a.pipeline.portfolio = s.portfolio

/-- An advance that records this fill and no other. -/
structure Records (s : PipelineState) (fill : Fill) (a : Advance W) : Prop where
  fills : fillsOf a.events = [fill]
  portfolio : a.pipeline.portfolio = s.portfolio.applyFill fill

theorem toAudit_next (s : PipelineState) (signal : TradeSignal) (guarded : GuardedSignal)
    (result : ExecutionResult) (before : List PipelineEvent) :
    (p.toAudit s signal guarded result before).next = none ∨
      ∃ envelope, (p.toAudit s signal guarded result before).next = some (.audit envelope) := by
  simp only [toAudit]
  split
  · exact .inl rfl
  · split
    · exact .inl rfl
    · exact .inr ⟨_, rfl⟩

theorem toAudit_of_applied {s s' : PipelineState} (signal : TradeSignal)
    (guarded : GuardedSignal) {result : ExecutionResult} (before : List PipelineEvent)
    {fills : List PipelineEvent}
    (h : applyResult s result = .ok (s', fills)) :
    (p.toAudit s signal guarded result before).pipeline = s' ∧
      fillsOf (p.toAudit s signal guarded result before).events =
        fillsOf before ++ fillsOf fills := by
  simp only [toAudit]
  rw [h]
  dsimp only
  split
  · exact ⟨rfl, fillsOf_append _ _⟩
  · refine ⟨rfl, ?_⟩
    rw [fillsOf_append, fillsOf_append]
    exact List.append_nil _

theorem toAudit_quiet {s : PipelineState} {signal : TradeSignal} {guarded : GuardedSignal}
    {result : ExecutionResult} {before : List PipelineEvent} (hx : result.executed = false)
    (hbefore : fillsOf before = []) : Quiet s (p.toAudit s signal guarded result before) := by
  have happly : applyResult s result = .ok (s, []) := by
    simp [applyResult, hx]
  obtain ⟨hs, hf⟩ := p.toAudit_of_applied signal guarded before happly
  refine ⟨?_, by rw [hs]⟩
  rw [hf, hbefore]
  rfl

/-- After the broker: nothing, or the fill of a successful call. -/
theorem toAudit_settled (s : PipelineState) (signal : TradeSignal) (guarded : GuardedSignal)
    (call : OrderCall) (now : UtcTime) (outcome : Except Exn OrderResult)
    (before : List PipelineEvent) (hbefore : fillsOf before = []) :
    Quiet s (p.toAudit s signal guarded (OrderExecutor.settle call now outcome) before) ∨
      OrderExecutor.succeeded outcome = true ∧
        Records s ⟨call.symbol, call.action, call.quantity, now⟩
          (p.toAudit s signal guarded (OrderExecutor.settle call now outcome) before) := by
  cases hs : OrderExecutor.succeeded outcome with
  | false => exact .inl (p.toAudit_quiet (by rw [OrderExecutor.settle_executed, hs]) hbefore)
  | true =>
      by_cases ha : call.action = .hold
      · have happly : applyResult s (OrderExecutor.settle call now outcome) = .ok (s, []) := by
          simp [applyResult, ha]
        obtain ⟨hp, hf⟩ := p.toAudit_of_applied signal guarded before happly
        refine .inl ⟨?_, by rw [hp]⟩
        rw [hf, hbefore]
        rfl
      · by_cases hq : 0 < call.quantity
        · have happly := p.toAudit_of_applied signal guarded before
            (applyResult_settled s now hs ha hq)
          refine .inr ⟨rfl, ?_, by rw [happly.1]⟩
          rw [happly.2, hbefore]
          rfl
        · have happly : ∃ e, applyResult s (OrderExecutor.settle call now outcome) = .error e := by
            simp only [applyResult]
            simp only [OrderExecutor.settle_executed, hs, OrderExecutor.settle_intendedAction,
              OrderExecutor.settle_intendedSymbol, OrderExecutor.settle_intendedQuantity,
              OrderExecutor.settle_ts]
            rw [if_pos ⟨trivial, ha⟩]
            simp only [Portfolio.recordFill]
            rw [if_neg ha, if_pos (not_lt.mp hq)]
            exact ⟨_, rfl⟩
          obtain ⟨e, he⟩ := happly
          refine .inl ?_
          simp only [toAudit]
          rw [he]
          exact ⟨hbefore, rfl⟩

/-! ### A tick that is not interrupted -/

/-- From an advance of the task `id`, some steps of that task alone lead to the outcome. -/
def Completes (tasks : Nat → Option (TickTask W)) (id : Nat) (task : TickTask W)
    (a : Advance W) (out : TickOutcome) : Prop :=
  ∀ clock, ∃ ls clock' events,
    p.interleaved.run ⟨a.pipeline,
        Function.update tasks id (a.next.map fun phase => { task with phase := phase }), clock⟩
        ls = some (⟨out.state, tasks, clock'⟩, events) ∧
      a.events ++ events = out.events

section Uninterrupted

variable {p} {tasks : Nat → Option (TickTask W)} {id : Nat} (hfree : tasks id = none)
include hfree

theorem update_none : Function.update tasks id none = tasks := by
  rw [← hfree, Function.update_eq_self]

theorem completes_ended (task : TickTask W) {a : Advance W} {out : TickOutcome}
    (hnext : a.next = none) (hs : a.pipeline = out.state) (he : a.events = out.events) :
    p.Completes tasks id task a out := by
  intro clock
  refine ⟨[], clock, [], ?_, by rw [List.append_nil, he]⟩
  rw [hnext, hs, Option.map_none, update_none hfree]
  rfl

omit hfree in
theorem completes_resumed {task : TickTask W} {a : Advance W} {out : TickOutcome}
    {phase : TickPhase W} (events : List PipelineEvent) (w : W) (signalAt executeAt : UtcTime)
    (hnext : a.next = some phase) (hout : out.events = a.events ++ events)
    (h : p.Completes tasks id { task with phase := phase }
      (p.advance a.pipeline { task with phase := phase } w signalAt executeAt)
      ⟨out.state, events, out.result⟩) :
    p.Completes tasks id task a out := by
  intro clock
  obtain ⟨ls, clock', evs, hrun, hev⟩ := h executeAt.instant
  refine ⟨.resume id w signalAt executeAt :: ls, clock',
    (p.advance a.pipeline { task with phase := phase } w signalAt executeAt).events ++ evs,
    ?_, ?_⟩
  · refine (p.interleaved.run_cons _ _ _).mpr ⟨_, _, evs, ?_, hrun, rfl⟩
    simp only [interleaved, interleavedStep, hnext, Option.map_some, Function.update_self,
      Function.update_idem]
  · rw [hev, hout]

/-- The audit step, uninterrupted, is the one of the sequential tick. -/
theorem toAudit_completes (task : TickTask W) (s : PipelineState) (w : W) (signal : TradeSignal)
    (guarded : GuardedSignal) (result : ExecutionResult) (before : List PipelineEvent) :
    p.Completes tasks id task (p.toAudit s signal guarded result before)
      (handled (p.conclude s w signal guarded result before)) := by
  cases happly : applyResult s result with
  | error e =>
      have ha : p.toAudit s signal guarded result before = failed s before := by
        simp only [toAudit, happly]
      have hc : p.conclude s w signal guarded result before = ⟨s, before, .error e⟩ := by
        simp only [conclude, happly]
      rw [ha, hc]
      exact completes_ended hfree task rfl rfl rfl
  | ok applied =>
      obtain ⟨s', fills⟩ := applied
      cases hpub : p.auditPublisher with
      | none =>
          apply completes_ended hfree task
          · simp only [toAudit, happly, hpub]
          · simp only [toAudit, conclude, handled, happly, hpub, publishAudit]
          · simp only [toAudit, conclude, handled, happly, hpub, publishAudit, List.append_nil]
      | some publish =>
          have ha : p.toAudit s signal guarded result before =
              ⟨s', some (.audit (buildAuditEnvelope signal guarded result)),
                before ++ fills ++ [.publishAudit (buildAuditEnvelope signal guarded result)]⟩ := by
            simp only [toAudit, happly, hpub]
          rw [ha]
          refine completes_resumed [] w result.ts result.ts rfl ?_ ?_
          · simp only [conclude, handled, happly, hpub, publishAudit, List.append_nil]
            cases publish w (buildAuditEnvelope signal guarded result) <;> rfl
          · apply completes_ended hfree
            · simp only [advance, hpub]
              cases publish w (buildAuditEnvelope signal guarded result) <;> rfl
            · simp only [advance, conclude, handled, happly, hpub, publishAudit]
              cases publish w (buildAuditEnvelope signal guarded result) <;> rfl
            · simp only [advance, hpub]
              cases publish w (buildAuditEnvelope signal guarded result) <;> rfl

theorem toBroker_completes (task : TickTask W) (s : PipelineState) (w : W)
    (signal : TradeSignal) (guarded : GuardedSignal) (executeAt : UtcTime) :
    p.Completes tasks id task (p.toBroker s w signal guarded executeAt)
      (handled (p.act s w signal guarded executeAt)) := by
  simp only [toBroker, act, OrderExecutor.execute]
  cases hplan : p.executor.plan w guarded executeAt with
  | error e => exact completes_ended hfree task rfl rfl rfl
  | ok plan =>
      cases plan with
      | done result => exact toAudit_completes hfree task s w signal guarded result []
      | order call =>
          let outcome := p.executor.orderClient.placeOrder w call
          let result := OrderExecutor.settle call executeAt outcome
          have happend := p.handled_conclude_cons s w signal guarded result
            (.placeOrder call) [.orderReturned call outcome]
          refine completes_resumed
            ((handled (p.conclude s w signal guarded result
              [.orderReturned call outcome])).events) w executeAt executeAt rfl happend.2 ?_
          have h := toAudit_completes (p := p) hfree
            { task with phase := .broker signal guarded call executeAt } s w signal guarded result
            [.orderReturned call outcome]
          intro clock
          obtain ⟨ls, clock', events, hrun, hev⟩ := h clock
          refine ⟨ls, clock', events, ?_, hev⟩
          rw [← happend.1] at hrun
          exact hrun

theorem toGuards_completes {task : TickTask W} (s : PipelineState) (w : W)
    (signal : TradeSignal) (executeAt : UtcTime) (guards : List (OrderGuardrail W)) :
    p.Completes tasks id task (p.toGuards s w signal executeAt guards)
      (handled (match GuardrailPipeline.runGuards w signal task.context guards with
        | .error e => ⟨s, [], .error e⟩
        | .ok guarded => p.act s w signal guarded executeAt)) := by
  induction guards generalizing task with
  | nil => exact toBroker_completes hfree task s w signal _ executeAt
  | cons guard rest ih =>
      refine completes_resumed _ w executeAt executeAt rfl (List.nil_append _).symm ?_
      simp only [advance, GuardrailPipeline.runGuards]
      cases hcheck : guard.check w signal task.context with
      | error e => exact completes_ended hfree _ rfl rfl rfl
      | ok decision =>
          cases hallowed : decision.allowed with
          | false =>
              simp only [hallowed, Bool.not_false, if_true]
              exact toBroker_completes hfree _ s w signal _ executeAt
          | true =>
              simp only [hallowed, Bool.not_true, Bool.false_eq_true, if_false]
              exact @ih { task with phase := .guard signal guard rest }

theorem begin_completes (s : PipelineState) (inp : TickInput W) :
    p.Completes tasks id (p.begin s inp.tick inp.snapshotAt).2
      ⟨(p.begin s inp.tick inp.snapshotAt).1, some .coordinator, []⟩ (p.onTick s inp) := by
  refine completes_resumed _ inp.world inp.signalAt inp.executeAt rfl
    (List.nil_append _).symm ?_
  change p.Completes tasks id _ (if (p.decision inp).action = .hold then _ else _)
    (handled (match p.guardrails.evaluate inp.world (p.decision inp) (p.snapshot s inp) with
      | .error e => _ | .ok guarded => _))
  simp only [GuardrailPipeline.evaluate]
  split
  · exact toBroker_completes hfree _ _ inp.world (p.decision inp) _ inp.executeAt
  · exact toGuards_completes hfree _ inp.world (p.decision inp) inp.executeAt _

end Uninterrupted

/-- A tick whose task runs through without interruption is a tick of the sequential runs. -/
theorem onTick_interleaved (s : InterleavedState W) {id : Nat} (hid : s.tasks id = none)
    (inp : TickInput W) : ∃ ls clock,
      p.interleaved.run s ls =
        some (⟨(p.onTick s.pipeline inp).state, s.tasks, clock⟩,
          (p.onTick s.pipeline inp).events) := by
  obtain ⟨ls, clock, events, hrun, hev⟩ :=
    begin_completes (p := p) hid s.pipeline inp inp.snapshotAt.instant
  refine ⟨.arrive id inp.tick inp.snapshotAt :: ls, clock,
    (p.interleaved.run_cons _ _ _).mpr ⟨_, [], events, ?_, hrun, ?_⟩⟩
  · simp only [interleaved, interleavedStep, hid, Option.map_some]
    rfl
  · simpa using hev.symm

end TradingPipeline
end NexusBackend
