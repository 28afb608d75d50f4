import NexusBackend.Trading.Guardrails
import NexusBackend.Trading.Sizer

/-!
From a guarded signal to an order. `execute` awaits the broker once: `plan` is
what it does up to that call, or all of it where no call is made, and `settle`
is what it makes of the answer. The log records are left out.
-/
namespace NexusBackend

open Python

structure OrderResult where
  success : Bool
  orderId : Option Text := none
  message : Text := []
deriving DecidableEq

/-- The arguments of `place_order`. -/
structure OrderCall where
  symbol : Text
  action : Action
  quantity : Int
deriving DecidableEq

structure OrderClient (W : Type*) where
  placeOrder : W → OrderCall → Except Exn OrderResult

inductive ExecutionMode
  | live
  | shadow
  | noop
deriving DecidableEq

namespace ExecutionMode

def value : ExecutionMode → Text
  | live => text "live"
  | shadow => text "shadow"
  | noop => text "noop"

end ExecutionMode

structure ExecutionResult where
  mode : ExecutionMode
  executed : Bool
  intendedAction : Action
  intendedSymbol : Text
  intendedQuantity : Int := 0
  orderId : Option Text := none
  reason : Option Text := none
  ts : UtcTime
deriving DecidableEq

/-- Where `execute` stands when it first suspends: finished, or awaiting this call. -/
inductive ExecutionPlan
  | done (result : ExecutionResult)
  | order (call : OrderCall)
deriving DecidableEq

structure OrderExecutor (W : Type*) where
  orderClient : OrderClient W
  allowLiveOrders : Bool
  sizer : PositionSizer W

namespace OrderExecutor

variable {W : Type*}

/-- The constructor: without a sizer, a fixed one of the default quantity. -/
def make (orderClient : OrderClient W) (allowLiveOrders : Bool) (defaultQuantity : Int)
    (sizer : Option (PositionSizer W)) : Except Exn (OrderExecutor W) :=
  match sizer with
  | some s => .ok ⟨orderClient, allowLiveOrders, s⟩
  | none =>
      if defaultQuantity ≤ 0 then
        raise .valueError (text "default_quantity must be > 0, got " ++ intText defaultQuantity)
      else
        (FixedSizer.make defaultQuantity).map fun s => ⟨orderClient, allowLiveOrders, s.toSizer⟩

def plan (ex : OrderExecutor W) (w : W) (guarded : GuardedSignal) (now : UtcTime) :
    Except Exn ExecutionPlan :=
  let effective := guarded.effectiveSignal
  if effective.action = .hold then
    .ok (.done { mode := .noop, executed := false, intendedAction := effective.action,
                 intendedSymbol := effective.symbol, reason := guarded.blockedBy, ts := now })
  else
    match ex.sizer.quantity w effective with
    | .error e => .error e
    | .ok quantity =>
        if quantity ≤ 0 then
          .ok (.done { mode := .noop, executed := false, intendedAction := effective.action,
                       intendedSymbol := effective.symbol,
                       reason := some (text "sizer returned 0 — confidence below floor"),
                       ts := now })
        else if !ex.allowLiveOrders then
          .ok (.done { mode := .shadow, executed := false, intendedAction := effective.action,
                       intendedSymbol := effective.symbol, intendedQuantity := quantity,
                       reason := some (text "ALLOW_LIVE_ORDERS=false"), ts := now })
        else .ok (.order ⟨effective.symbol, effective.action, quantity⟩)

def settle (call : OrderCall) (now : UtcTime) (outcome : Except Exn OrderResult) :
    ExecutionResult :=
  match outcome with
  | .error e =>
      { mode := .live, executed := false, intendedAction := call.action,
        intendedSymbol := call.symbol, intendedQuantity := call.quantity,
        reason := some (e.kind.name ++ text ": " ++ e.message), ts := now }
  | .ok result =>
      { mode := .live, executed := result.success, intendedAction := call.action,
        intendedSymbol := call.symbol, intendedQuantity := call.quantity,
        orderId := result.orderId,
        reason := if result.success then none else some result.message, ts := now }

/-- What a plan comes to, with the call it makes and the answer to it. -/
def carryOut (ex : OrderExecutor W) (w : W) (now : UtcTime) :
    ExecutionPlan → ExecutionResult × Option (OrderCall × Except Exn OrderResult)
  | .done result => (result, none)
  | .order call =>
      let outcome := ex.orderClient.placeOrder w call
      (settle call now outcome, some (call, outcome))

def execute (ex : OrderExecutor W) (w : W) (guarded : GuardedSignal) (now : UtcTime) :
    Except Exn (ExecutionResult × Option (OrderCall × Except Exn OrderResult)) :=
  (ex.plan w guarded now).map (ex.carryOut w now)

/-! ### What a plan can be -/

/-- The broker reported success. -/
def succeeded : Except Exn OrderResult → Bool
  | .ok result => result.success
  | .error _ => false

/-- Past the HOLD check and the sizer, only the live switch is left to read. -/
theorem plan_sized {ex : OrderExecutor W} {w : W} {guarded : GuardedSignal} {quantity : Int}
    (now : UtcTime) (hold : guarded.effectiveSignal.action ≠ .hold)
    (hsize : ex.sizer.quantity w guarded.effectiveSignal = .ok quantity) (hpos : 0 < quantity)
    (hlive : ex.allowLiveOrders = true) :
    ex.plan w guarded now = .ok (.order
      ⟨guarded.effectiveSignal.symbol, guarded.effectiveSignal.action, quantity⟩) := by
  simp only [plan]
  simp only [if_neg hold, hsize, hlive, Bool.not_true, Bool.false_eq_true, if_false]
  rw [if_neg (by omega)]

/-- What `plan` can come to: one case for each of its exits. -/
inductive Planned (ex : OrderExecutor W) (w : W) (guarded : GuardedSignal) (now : UtcTime) :
    ExecutionPlan → Prop
  | held (hold : guarded.effectiveSignal.action = .hold) :
      Planned ex w guarded now
        (.done { mode := .noop, executed := false,
                 intendedAction := guarded.effectiveSignal.action,
                 intendedSymbol := guarded.effectiveSignal.symbol,
                 reason := guarded.blockedBy, ts := now })
  | unsized (hold : guarded.effectiveSignal.action ≠ .hold) :
      Planned ex w guarded now
        (.done { mode := .noop, executed := false,
                 intendedAction := guarded.effectiveSignal.action,
                 intendedSymbol := guarded.effectiveSignal.symbol,
                 reason := some (text "sizer returned 0 — confidence below floor"), ts := now })
  | shadowed (hold : guarded.effectiveSignal.action ≠ .hold) {quantity : Int}
      (hsize : ex.sizer.quantity w guarded.effectiveSignal = .ok quantity) (hpos : 0 < quantity) :
      Planned ex w guarded now
        (.done { mode := .shadow, executed := false,
                 intendedAction := guarded.effectiveSignal.action,
                 intendedSymbol := guarded.effectiveSignal.symbol,
                 intendedQuantity := quantity, reason := some (text "ALLOW_LIVE_ORDERS=false"),
                 ts := now })
  | ordered (hlive : ex.allowLiveOrders = true) (hold : guarded.effectiveSignal.action ≠ .hold)
      {quantity : Int} (hsize : ex.sizer.quantity w guarded.effectiveSignal = .ok quantity)
      (hpos : 0 < quantity) :
      Planned ex w guarded now
        (.order ⟨guarded.effectiveSignal.symbol, guarded.effectiveSignal.action, quantity⟩)

theorem plan_planned {ex : OrderExecutor W} {w : W} {guarded : GuardedSignal} {now : UtcTime}
    {first : ExecutionPlan} (h : ex.plan w guarded now = .ok first) :
    ex.Planned w guarded now first := by
  rw [plan] at h
  split at h
  · rename_i hold
    cases h
    exact .held hold
  · rename_i hold
    split at h
    · cases h
    · rename_i quantity hsize
      split at h
      · cases h
        exact .unsized hold
      · rename_i hpos
        split at h
        · cases h
          exact .shadowed hold hsize (not_le.mp hpos)
        · rename_i hlive
          cases h
          exact .ordered (by simpa using hlive) hold hsize (not_le.mp hpos)

theorem plan_order_inv {ex : OrderExecutor W} {w : W} {guarded : GuardedSignal} {now : UtcTime}
    {call : OrderCall} (h : ex.plan w guarded now = .ok (.order call)) :
    ex.allowLiveOrders = true ∧ guarded.effectiveSignal.action ≠ .hold ∧
      ex.sizer.quantity w guarded.effectiveSignal = .ok call.quantity ∧ 0 < call.quantity ∧
      call.symbol = guarded.effectiveSignal.symbol ∧
      call.action = guarded.effectiveSignal.action := by
  cases plan_planned h with
  | ordered hlive hold hsize hpos => exact ⟨hlive, hold, hsize, hpos, rfl, rfl⟩

/-- The one case in which the broker is called, and with what. -/
theorem plan_order_iff (ex : OrderExecutor W) (w : W) (guarded : GuardedSignal) (now : UtcTime)
    (call : OrderCall) :
    ex.plan w guarded now = .ok (.order call) ↔
      ex.allowLiveOrders = true ∧ guarded.effectiveSignal.action ≠ .hold ∧
        ex.sizer.quantity w guarded.effectiveSignal = .ok call.quantity ∧ 0 < call.quantity ∧
        call.symbol = guarded.effectiveSignal.symbol ∧
        call.action = guarded.effectiveSignal.action := by
  constructor
  · exact plan_order_inv
  · obtain ⟨symbol, action, quantity⟩ := call
    rintro ⟨hlive, hold, hsize, hpos, rfl, rfl⟩
    exact plan_sized now hold hsize hpos hlive

/-- A plan that is done reports no execution. -/
theorem plan_done_not_executed {ex : OrderExecutor W} {w : W} {guarded : GuardedSignal}
    {now : UtcTime} {result : ExecutionResult} (h : ex.plan w guarded now = .ok (.done result)) :
    result.executed = false := by
  cases plan_planned h <;> rfl

@[simp] theorem settle_mode (call : OrderCall) (now : UtcTime)
    (outcome : Except Exn OrderResult) : (settle call now outcome).mode = .live := by
  cases outcome <;> rfl

@[simp] theorem settle_executed (call : OrderCall) (now : UtcTime)
    (outcome : Except Exn OrderResult) :
    (settle call now outcome).executed = succeeded outcome := by
  cases outcome <;> rfl

@[simp] theorem settle_intendedAction (call : OrderCall) (now : UtcTime)
    (outcome : Except Exn OrderResult) :
    (settle call now outcome).intendedAction = call.action := by
  cases outcome <;> rfl

@[simp] theorem settle_intendedSymbol (call : OrderCall) (now : UtcTime)
    (outcome : Except Exn OrderResult) :
    (settle call now outcome).intendedSymbol = call.symbol := by
  cases outcome <;> rfl

@[simp] theorem settle_intendedQuantity (call : OrderCall) (now : UtcTime)
    (outcome : Except Exn OrderResult) :
    (settle call now outcome).intendedQuantity = call.quantity := by
  cases outcome <;> rfl

@[simp] theorem settle_ts (call : OrderCall) (now : UtcTime)
    (outcome : Except Exn OrderResult) : (settle call now outcome).ts = now := by
  cases outcome <;> rfl

end OrderExecutor
end NexusBackend
