import NexusBackend.Library.Transition
import NexusBackend.Trading.Context
import NexusBackend.Trading.Coordinator
import NexusBackend.Trading.Executor
import NexusBackend.Trading.Portfolio

/-!
One tick through context, coordinator, guards, executor and portfolio, and runs
of ticks that follow one another. Agents, guards, sizer, broker and audit
publisher are functions of what they can observe at the tick, `W`; every clock
reading is an input. Log records are left out.
-/
namespace NexusBackend

open Python

/-! ### Audit envelope -/

structure AuditVote where
  agentId : Text
  action : Text
  confidence : ℚ
deriving DecidableEq

structure AuditEnvelope where
  ts : Text
  symbol : Text
  mode : Text
  executed : Bool
  intendedAction : Text
  intendedQuantity : Int
  orderId : Option Text
  blockedBy : Option Text
  reason : Option Text
  signalAction : Text
  signalConfidence : ℚ
  signalScore : ℚ
  signalRationale : List AuditVote
deriving DecidableEq

/-- `_build_audit_envelope`. -/
def buildAuditEnvelope (signal : TradeSignal) (guarded : GuardedSignal)
    (result : ExecutionResult) : AuditEnvelope where
  ts := result.ts.toDateTime.isoformat
  symbol := result.intendedSymbol
  mode := result.mode.value
  executed := result.executed
  intendedAction := result.intendedAction.value
  intendedQuantity := result.intendedQuantity
  orderId := result.orderId
  blockedBy := guarded.blockedBy
  reason := result.reason
  signalAction := signal.action.value
  signalConfidence := signal.confidence
  signalScore := signal.score
  signalRationale := signal.contributors.map fun c => ⟨c.agentId, c.action.value, c.confidence⟩

/-! ### State and events -/

structure PipelineState where
  context : TickContext
  portfolio : Portfolio
  tickCount : Nat := 0
  executedCount : Nat := 0
  errorCount : Nat := 0
  auditFailureCount : Nat := 0

namespace PipelineState

def initial (context : TickContext) : PipelineState := { context := context, portfolio := .empty }

def countTick (s : PipelineState) : PipelineState := { s with tickCount := s.tickCount + 1 }

def record (s : PipelineState) (tick : Tick) : PipelineState :=
  { s with context := s.context.record tick }

end PipelineState

/-- What a tick does outside the pipeline, and the fills it records. -/
inductive PipelineEvent
  | placeOrder (call : OrderCall)
  | orderReturned (call : OrderCall) (outcome : Except Exn OrderResult)
  | recordFill (fill : Fill)
  | publishAudit (envelope : AuditEnvelope)

namespace PipelineEvent

def call? : PipelineEvent → Option OrderCall
  | placeOrder call => some call
  | _ => none

/-- A call that the broker reported as successful. -/
def success? : PipelineEvent → Option OrderCall
  | orderReturned call outcome => if OrderExecutor.succeeded outcome then some call else none
  | _ => none

def fill? : PipelineEvent → Option Fill
  | recordFill fill => some fill
  | _ => none

end PipelineEvent

/-- The calls of `place_order`, in order. -/
def ordersOf (events : List PipelineEvent) : List OrderCall :=
  events.filterMap PipelineEvent.call?

def successesOf (events : List PipelineEvent) : List OrderCall :=
  events.filterMap PipelineEvent.success?

def fillsOf (events : List PipelineEvent) : List Fill :=
  events.filterMap PipelineEvent.fill?

@[simp] theorem fillsOf_append (es fs : List PipelineEvent) :
    fillsOf (es ++ fs) = fillsOf es ++ fillsOf fs := List.filterMap_append

@[simp] theorem ordersOf_append (es fs : List PipelineEvent) :
    ordersOf (es ++ fs) = ordersOf es ++ ordersOf fs := List.filterMap_append

@[simp] theorem successesOf_append (es fs : List PipelineEvent) :
    successesOf (es ++ fs) = successesOf es ++ successesOf fs := List.filterMap_append

/-! ### The pipeline -/

structure TradingPipeline (W : Type*) where
  coordinator : TradingCoordinator W
  guardrails : GuardrailPipeline W
  executor : OrderExecutor W
  volatilityWindow : Int := 10
  auditPublisher : Option (W → AuditEnvelope → Except Exn Unit) := none

/-- A tick with what the collaborators observe and the clock reads during it. -/
structure TickInput (W : Type*) where
  tick : Tick
  world : W
  snapshotAt : UtcTime
  signalAt : UtcTime
  executeAt : UtcTime

/-- The fill that a successful call leads to. -/
def TickInput.fillOf {W : Type*} (inp : TickInput W) (call : OrderCall) : Fill :=
  ⟨call.symbol, call.action, call.quantity, inp.executeAt⟩

/-- State, events in order, and how the coroutine ended. -/
structure TickOutcome where
  state : PipelineState
  events : List PipelineEvent
  result : Except Exn Unit

namespace TradingPipeline

variable {W : Type*} (p : TradingPipeline W)

/-- The snapshot for the guards; `s` has the tick on record. -/
def guardContext (s : PipelineState) (tick : Tick) (now : UtcTime) : GuardContext where
  positions := s.portfolio.positions
  lastTradeAt := s.portfolio.lastTradeAt
  recentPrices :=
    Finmap.singleton tick.symbol (s.context.recentPrices tick.symbol (some p.volatilityWindow))
  now := now

/-- The portfolio update after an execution. -/
def applyResult (s : PipelineState) (result : ExecutionResult) :
    Except Exn (PipelineState × List PipelineEvent) :=
  if result.executed = true ∧ result.intendedAction ≠ .hold then
    let fill : Fill :=
      ⟨result.intendedSymbol, result.intendedAction, result.intendedQuantity, result.ts⟩
    (s.portfolio.recordFill fill).map fun portfolio =>
      ({ s with portfolio := portfolio, executedCount := s.executedCount + 1 },
        [.recordFill fill])
  else .ok (s, [])

def publishAudit (s : PipelineState) (w : W) (envelope : AuditEnvelope) :
    PipelineState × List PipelineEvent :=
  match p.auditPublisher with
  | none => (s, [])
  | some publish =>
      match publish w envelope with
      | .ok _ => (s, [.publishAudit envelope])
      | .error _ =>
          ({ s with auditFailureCount := s.auditFailureCount + 1 }, [.publishAudit envelope])

/-- The call of an execution and its answer, as events. -/
def callEvents : Option (OrderCall × Except Exn OrderResult) → List PipelineEvent
  | none => []
  | some (call, outcome) => [.placeOrder call, .orderReturned call outcome]

/-- The decision of the coordinator at this tick. -/
def decision (inp : TickInput W) : TradeSignal :=
  p.coordinator.evaluate inp.world inp.tick.symbol inp.signalAt

/-- What the guards see at this tick, which is on record already. -/
def snapshot (s : PipelineState) (inp : TickInput W) : GuardContext :=
  p.guardContext (s.record inp.tick) inp.tick inp.snapshotAt

/-- `_process` after the executor: portfolio, then audit. -/
def conclude (s : PipelineState) (w : W) (signal : TradeSignal) (guarded : GuardedSignal)
    (result : ExecutionResult) (before : List PipelineEvent) : TickOutcome :=
  match applyResult s result with
  | .error e => ⟨s, before, .error e⟩
  | .ok (s', fills) =>
      let audited := p.publishAudit s' w (buildAuditEnvelope signal guarded result)
      ⟨audited.1, before ++ fills ++ audited.2, .ok ()⟩

/-- `_process` from the executor on. -/
def act (s : PipelineState) (w : W) (signal : TradeSignal) (guarded : GuardedSignal)
    (executeAt : UtcTime) : TickOutcome :=
  match p.executor.execute w guarded executeAt with
  | .error e => ⟨s, [], .error e⟩
  | .ok (result, made) => p.conclude s w signal guarded result (callEvents made)

/-- `_process`. -/
def process (s : PipelineState) (inp : TickInput W) : TickOutcome :=
  match p.guardrails.evaluate inp.world (p.decision inp) (p.snapshot s inp) with
  | .error e => ⟨s.record inp.tick, [], .error e⟩
  | .ok guarded =>
      p.act (s.record inp.tick) inp.world (p.decision inp) guarded inp.executeAt

/-- The exception handler of `on_tick`. -/
def handled (out : TickOutcome) : TickOutcome :=
  match out.result with
  | .ok _ => out
  | .error _ =>
      ⟨{ out.state with errorCount := out.state.errorCount + 1 }, out.events, .ok ()⟩

theorem process_guard_error {s : PipelineState} {inp : TickInput W} {e : Exn}
    (hg : p.guardrails.evaluate inp.world (p.decision inp) (p.snapshot s inp) = .error e) :
    p.process s inp = ⟨s.record inp.tick, [], .error e⟩ := by
  simp only [process]
  rw [hg]

theorem process_plan_error {s : PipelineState} {inp : TickInput W} {guarded : GuardedSignal}
    {e : Exn}
    (hg : p.guardrails.evaluate inp.world (p.decision inp) (p.snapshot s inp) = .ok guarded)
    (hp : p.executor.plan inp.world guarded inp.executeAt = .error e) :
    p.process s inp = ⟨s.record inp.tick, [], .error e⟩ := by
  simp only [process, act, OrderExecutor.execute]
  rw [hg]
  dsimp only
  rw [hp]
  rfl

theorem process_planned {s : PipelineState} {inp : TickInput W} {guarded : GuardedSignal}
    {plan : ExecutionPlan}
    (hg : p.guardrails.evaluate inp.world (p.decision inp) (p.snapshot s inp) = .ok guarded)
    (hp : p.executor.plan inp.world guarded inp.executeAt = .ok plan) :
    p.process s inp =
      p.conclude (s.record inp.tick) inp.world (p.decision inp) guarded
        (p.executor.carryOut inp.world inp.executeAt plan).1
        (callEvents (p.executor.carryOut inp.world inp.executeAt plan).2) := by
  simp only [process, act, OrderExecutor.execute]
  rw [hg]
  dsimp only
  rw [hp]
  rfl

theorem handled_conclude_cons (s : PipelineState) (w : W) (signal : TradeSignal)
    (guarded : GuardedSignal) (result : ExecutionResult) (event : PipelineEvent)
    (before : List PipelineEvent) :
    (handled (p.conclude s w signal guarded result (event :: before))).state =
        (handled (p.conclude s w signal guarded result before)).state ∧
      (handled (p.conclude s w signal guarded result (event :: before))).events =
        [event] ++ (handled (p.conclude s w signal guarded result before)).events := by
  simp only [conclude]
  cases applyResult s result <;> exact ⟨rfl, rfl⟩

def onTick (s : PipelineState) (inp : TickInput W) : TickOutcome :=
  handled (p.process s.countTick inp)

/-- Ticks that follow one another. -/
def sequential : Transition.Machine PipelineState (TickInput W) PipelineEvent where
  step s inp := some ((p.onTick s inp).state, (p.onTick s inp).events)

/-! ### What one tick can do -/

/-- The tick calls for this order: live switch, a direction, every guard's
consent and a positive size. -/
structure OrderDue (s : PipelineState) (inp : TickInput W) (call : OrderCall) : Prop where
  live : p.executor.allowLiveOrders = true
  direction : (p.decision inp).action ≠ .hold
  consent : ∀ guard ∈ p.guardrails.guards,
    GuardrailPipeline.Allows inp.world (p.decision inp) (p.snapshot s inp) guard
  size : p.executor.sizer.quantity inp.world (p.decision inp) = .ok call.quantity
  size_pos : 0 < call.quantity
  symbol : call.symbol = inp.tick.symbol
  action : call.action = (p.decision inp).action

theorem OrderDue.unique {s : PipelineState} {inp : TickInput W} {c d : OrderCall}
    (hc : p.OrderDue s inp c) (hd : p.OrderDue s inp d) : c = d := by
  obtain ⟨symbol, action, quantity⟩ := c
  obtain ⟨symbol', action', quantity'⟩ := d
  have hq : quantity = quantity' := Except.ok.inj (hc.size.symm.trans hd.size)
  have hs : symbol = symbol' := hc.symbol.trans hd.symbol.symm
  have ha : action = action' := hc.action.trans hd.action.symm
  rw [hq, hs, ha]

/-- An order is due exactly when the guarded signal's plan is that order. -/
theorem orderDue_iff_plan (s : PipelineState) (inp : TickInput W) (call : OrderCall) :
    p.OrderDue s inp call ↔
      ∃ guarded, p.guardrails.evaluate inp.world (p.decision inp) (p.snapshot s inp) =
          .ok guarded ∧
        p.executor.plan inp.world guarded inp.executeAt = .ok (.order call) := by
  constructor
  · intro h
    obtain ⟨g, hg, hne⟩ := (GuardrailPipeline.evaluate_effective_ne_hold_iff
      p.guardrails inp.world (p.decision inp) (p.snapshot s inp)).mpr ⟨h.direction, h.consent⟩
    have heff := GuardrailPipeline.evaluate_effective hg hne
    refine ⟨g, hg, (OrderExecutor.plan_order_iff _ _ _ _ _).mpr ?_⟩
    rw [heff]
    exact ⟨h.live, h.direction, h.size, h.size_pos,
      h.symbol.trans (TradingCoordinator.evaluate_symbol _ _ _ _).symm, h.action⟩
  · rintro ⟨g, hg, hplan⟩
    obtain ⟨hlive, hne, hsize, hpos, hsym, hact⟩ := OrderExecutor.plan_order_inv hplan
    have heff := GuardrailPipeline.evaluate_effective hg hne
    obtain ⟨hdir, hcons⟩ := (GuardrailPipeline.evaluate_effective_ne_hold_iff
      p.guardrails inp.world (p.decision inp) (p.snapshot s inp)).mp ⟨g, hg, hne⟩
    rw [heff] at hsize hsym hact
    exact ⟨hlive, hdir, hcons, hsize, hpos,
      hsym.trans (TradingCoordinator.evaluate_symbol _ _ _ _), hact⟩

/-- The answer the broker gives to a call at this tick. -/
def answer (inp : TickInput W) (call : OrderCall) : Except Exn OrderResult :=
  p.executor.orderClient.placeOrder inp.world call

/-- The audit step touches one counter and emits audit events only. -/
theorem publishAudit_spec (s : PipelineState) (w : W) (envelope : AuditEnvelope) :
    (p.publishAudit s w envelope).1.portfolio = s.portfolio ∧
      (p.publishAudit s w envelope).1.executedCount = s.executedCount ∧
      ordersOf (p.publishAudit s w envelope).2 = [] ∧
      successesOf (p.publishAudit s w envelope).2 = [] ∧
      fillsOf (p.publishAudit s w envelope).2 = [] := by
  simp only [publishAudit]
  split
  · exact ⟨rfl, rfl, rfl, rfl, rfl⟩
  · split <;> exact ⟨rfl, rfl, rfl, rfl, rfl⟩

/-- How a tick leaves the books: its calls, the successful ones among them, and
the fills, which are all that changes the portfolio and the count. -/
structure Leaves (portfolio : Portfolio) (executed : Nat) (out : TickOutcome)
    (orders successes : List OrderCall) (fills : List Fill) : Prop where
  orders_eq : ordersOf out.events = orders
  successes_eq : successesOf out.events = successes
  fills_eq : fillsOf out.events = fills
  portfolio_eq : out.state.portfolio = fills.foldl Portfolio.applyFill portfolio
  executed_eq : out.state.executedCount = executed + fills.length

theorem onTick_returns (s : PipelineState) (inp : TickInput W) :
    (p.onTick s inp).result = .ok () := by
  simp only [onTick, handled]
  split
  · assumption
  · rfl

theorem onTick_leaves {s : PipelineState} {inp : TickInput W} {portfolio : Portfolio}
    {executed : Nat} {orders successes : List OrderCall} {fills : List Fill}
    (h : Leaves portfolio executed (p.process s.countTick inp)
      orders successes fills) :
    Leaves portfolio executed (p.onTick s inp) orders successes fills := by
  simp only [onTick, handled]
  split
  · exact h
  · exact ⟨h.orders_eq, h.successes_eq, h.fills_eq, h.portfolio_eq, h.executed_eq⟩

/-- An execution that reports no success changes nothing. -/
theorem conclude_leaves_unchanged (s : PipelineState) (w : W) (signal : TradeSignal)
    (guarded : GuardedSignal) (result : ExecutionResult) (before : List PipelineEvent)
    (h : result.executed = false) (hbefore : fillsOf before = []) :
    Leaves s.portfolio s.executedCount (p.conclude s w signal guarded result before)
      (ordersOf before) (successesOf before) [] := by
  have happly : applyResult s result = .ok (s, []) := by
    simp [applyResult, h]
  obtain ⟨hp, hx, ho, hs, hf⟩ := p.publishAudit_spec s w (buildAuditEnvelope signal guarded result)
  simp only [conclude]
  rw [happly]
  refine ⟨?_, ?_, ?_, hp, hx⟩
  · simp [ho]
  · simp [hs]
  · simp [hf, hbefore]

theorem applyResult_settled (s : PipelineState) {call : OrderCall} (now : UtcTime)
    {outcome : Except Exn OrderResult} (hs : OrderExecutor.succeeded outcome = true)
    (ha : call.action ≠ .hold) (hq : 0 < call.quantity) :
    applyResult s (OrderExecutor.settle call now outcome) =
      .ok ({ s with
              portfolio := s.portfolio.applyFill ⟨call.symbol, call.action, call.quantity, now⟩
              executedCount := s.executedCount + 1 },
        [.recordFill ⟨call.symbol, call.action, call.quantity, now⟩]) := by
  simp only [applyResult]
  simp only [OrderExecutor.settle_executed, hs, OrderExecutor.settle_intendedAction,
    OrderExecutor.settle_intendedSymbol, OrderExecutor.settle_intendedQuantity,
    OrderExecutor.settle_ts]
  rw [if_pos ⟨trivial, ha⟩, Portfolio.recordFill_eq_ok ha hq]
  rfl

/-- A successful call is recorded as one fill. -/
theorem conclude_leaves_filled (s : PipelineState) (w : W) (signal : TradeSignal)
    (guarded : GuardedSignal) (call : OrderCall) (now : UtcTime)
    {outcome : Except Exn OrderResult} (hs : OrderExecutor.succeeded outcome = true)
    (ha : call.action ≠ .hold) (hq : 0 < call.quantity) :
    Leaves s.portfolio s.executedCount
      (p.conclude s w signal guarded (OrderExecutor.settle call now outcome)
        (callEvents (some (call, outcome))))
      [call] [call] [⟨call.symbol, call.action, call.quantity, now⟩] := by
  simp only [conclude]
  rw [applyResult_settled s now hs ha hq]
  dsimp only
  obtain ⟨hp, hx, ho, hsucc, hf⟩ := p.publishAudit_spec
    { s with
      portfolio := s.portfolio.applyFill ⟨call.symbol, call.action, call.quantity, now⟩
      executedCount := s.executedCount + 1 } w
    (buildAuditEnvelope signal guarded (OrderExecutor.settle call now outcome))
  refine ⟨?_, ?_, ?_, hp, hx⟩
  · simp only [ordersOf_append, ho]
    rfl
  · simp only [successesOf_append, hsucc, List.append_nil]
    simp [successesOf, callEvents, PipelineEvent.success?, List.filterMap_cons, hs]
  · simp only [fillsOf_append, hf]
    rfl

/-- A rejected or failed call is made and changes nothing. -/
theorem conclude_leaves_refused (s : PipelineState) (w : W) (signal : TradeSignal)
    (guarded : GuardedSignal) (call : OrderCall) (now : UtcTime)
    {outcome : Except Exn OrderResult} (hs : OrderExecutor.succeeded outcome = false) :
    Leaves s.portfolio s.executedCount
      (p.conclude s w signal guarded (OrderExecutor.settle call now outcome)
        (callEvents (some (call, outcome))))
      [call] [] [] := by
  have h := p.conclude_leaves_unchanged s w signal guarded (OrderExecutor.settle call now outcome)
    (callEvents (some (call, outcome)))
    (by rw [OrderExecutor.settle_executed, hs]) rfl
  have hsucc : successesOf (callEvents (some (call, outcome))) = [] := by
    simp [successesOf, callEvents, PipelineEvent.success?, List.filterMap_cons, hs]
  rwa [hsucc] at h

/-- The tick makes no call: a guard raised or blocked, HOLD, no size, or shadow mode. -/
theorem onTick_quiet {s : PipelineState} {inp : TickInput W}
    (h : ∀ call, ¬ p.OrderDue s inp call) :
    Leaves s.portfolio s.executedCount (p.onTick s inp) [] [] [] := by
  apply p.onTick_leaves
  cases hg : p.guardrails.evaluate inp.world (p.decision inp) (p.snapshot s inp) with
  | error e =>
      rw [p.process_guard_error (s := s.countTick) hg]
      exact ⟨rfl, rfl, rfl, rfl, rfl⟩
  | ok guarded =>
      cases hp : p.executor.plan inp.world guarded inp.executeAt with
      | error e =>
          rw [p.process_plan_error (s := s.countTick) hg hp]
          exact ⟨rfl, rfl, rfl, rfl, rfl⟩
      | ok plan =>
          cases plan with
          | order call =>
              exact absurd ((p.orderDue_iff_plan s inp call).mpr ⟨guarded, hg, hp⟩) (h call)
          | done result =>
              rw [p.process_planned (s := s.countTick) hg hp]
              exact p.conclude_leaves_unchanged (s.countTick.record inp.tick) _ _ guarded _ []
                (OrderExecutor.plan_done_not_executed hp) rfl

/-- The tick makes exactly the call that is due, and records a fill of it
exactly when the broker reports success. -/
theorem onTick_ordered {s : PipelineState} {inp : TickInput W} {call : OrderCall}
    (h : p.OrderDue s inp call) :
    Leaves s.portfolio s.executedCount (p.onTick s inp) [call]
      (if OrderExecutor.succeeded (p.answer inp call) then [call] else [])
      (if OrderExecutor.succeeded (p.answer inp call) then [inp.fillOf call] else []) := by
  obtain ⟨guarded, hg, hp⟩ := (p.orderDue_iff_plan s inp call).mp h
  have hact : call.action ≠ .hold := by
    rw [h.action]
    exact h.direction
  apply p.onTick_leaves
  rw [p.process_planned (s := s.countTick) hg hp]
  cases hs : OrderExecutor.succeeded (p.answer inp call) with
  | true =>
      exact p.conclude_leaves_filled (s.countTick.record inp.tick) _ _ guarded call
        inp.executeAt hs hact h.size_pos
  | false =>
      exact p.conclude_leaves_refused (s.countTick.record inp.tick) _ _ guarded call
        inp.executeAt hs

end TradingPipeline
end NexusBackend
