import NexusBackend.Api.AccountAccess
import NexusBackend.Trading.Wiring
import NexusBackend.Trading.Interleaving

/-!
The live-order switch and the two ways to a broker: the executor of the pipeline reads the
switch, the order route does not. The system is the pipeline and the API side by side, each
with its own tasks; a tick may run between any two steps of a request and the other way
round.
-/
namespace NexusBackend

open Python Transition

/-! ### The pipeline with the switch off -/

namespace TradingPipeline

variable {W : Type*} {p : TradingPipeline W}

theorem applyResult_ordersOf {s s' : PipelineState} {result : ExecutionResult}
    {fills : List PipelineEvent} (h : applyResult s result = .ok (s', fills)) :
    ordersOf fills = [] := by
  rw [applyResult] at h
  split at h
  · dsimp only at h
    cases hr : s.portfolio.recordFill ⟨result.intendedSymbol, result.intendedAction,
      result.intendedQuantity, result.ts⟩ with
    | error e =>
        rw [hr] at h
        cases h
    | ok portfolio =>
        rw [hr] at h
        cases h
        rfl
  · cases h
    rfl

theorem toAudit_ordersOf (s : PipelineState) (signal : TradeSignal) (guarded : GuardedSignal)
    (result : ExecutionResult) (before : List PipelineEvent) :
    ordersOf (p.toAudit s signal guarded result before).events = ordersOf before := by
  simp only [toAudit]
  split
  · rfl
  · rename_i s' fills happly
    have hfills := applyResult_ordersOf happly
    split
    · rw [ordersOf_append, hfills, List.append_nil]
    · rw [ordersOf_append, ordersOf_append, hfills, List.append_nil]
      exact List.append_nil _

variable (hoff : p.executor.allowLiveOrders = false)
include hoff

theorem toBroker_ordersOf (s : PipelineState) (w : W) (signal : TradeSignal)
    (guarded : GuardedSignal) (executeAt : UtcTime) :
    ordersOf (p.toBroker s w signal guarded executeAt).events = [] := by
  simp only [toBroker]
  split
  · rfl
  · exact p.toAudit_ordersOf s signal guarded _ []
  · rename_i call hplan
    have hlive := (OrderExecutor.plan_order_inv hplan).1
    rw [hoff] at hlive
    cases hlive

theorem toGuards_ordersOf (s : PipelineState) (w : W) (signal : TradeSignal)
    (executeAt : UtcTime) (guards : List (OrderGuardrail W)) :
    ordersOf (p.toGuards s w signal executeAt guards).events = [] := by
  cases guards with
  | nil => exact toBroker_ordersOf hoff s w signal _ executeAt
  | cons guard rest => rfl

theorem advance_ordersOf (s : PipelineState) (task : TickTask W) (w : W)
    (signalAt executeAt : UtcTime) :
    ordersOf (p.advance s task w signalAt executeAt).events = [] := by
  rw [advance]
  split
  · dsimp only
    split
    · exact toBroker_ordersOf hoff s w _ _ executeAt
    · exact toGuards_ordersOf hoff s w _ executeAt _
  · split
    · rfl
    · split
      · exact toBroker_ordersOf hoff s w _ _ executeAt
      · exact toGuards_ordersOf hoff s w _ executeAt _
  · exact p.toAudit_ordersOf s _ _ _ _
  · split
    · rfl
    · split <;> rfl

theorem interleavedStep_ordersOf {s t : InterleavedState W} {l : TickLabel W}
    {es : List PipelineEvent} (h : p.interleavedStep s l = some (t, es)) : ordersOf es = [] := by
  cases stepped h with
  | arrive id tick snapshotAt free next quiet =>
      rw [quiet]
      rfl
  | resume id w signalAt executeAt task runs next events =>
      rw [events]
      exact advance_ordersOf hoff s.pipeline _ w signalAt executeAt

/-- With the switch off, no interleaving of ticks calls an order client. -/
theorem interleaved_ordersOf {s t : InterleavedState W} {ls : List (TickLabel W)}
    {tr : List PipelineEvent} (hr : p.interleaved.run s ls = some (t, tr)) :
    ordersOf tr = [] :=
  Machine.run_invariant (I := fun _ tr => ordersOf tr = [])
    (fun _ _ _ _ _ hs hstep => by
      rw [ordersOf_append, hs, interleavedStep_ordersOf hoff hstep, List.append_nil])
    rfl hr

end TradingPipeline

/-! ### Orders of the API -/

/-- A request to KIS that is an order. -/
def ApiEvent.SendsOrder : ApiEvent → Prop
  | orderSent _ _ => True
  | _ => False

namespace Api

variable {api : Api}

theorem postOrder_sends_iff (id : Nat) (arrival : Arrival) (cache : JwksCache)
    (body : OrderRequestDto) :
    (∃ e ∈ (api.postOrder id arrival cache body).events, e.SendsOrder) ↔
      ∃ client, api.orderClient = some client ∧
        (client.request arrival.accessToken body.toPlaceOrder).isOk = true := by
  rw [postOrder]
  split
  · rename_i hclient
    simp [hclient, ApiEvent.SendsOrder]
  · rename_i client hclient
    dsimp only
    split
    · rename_i e hreq
      simp [hclient, hreq, ApiEvent.SendsOrder, Except.isOk, Except.toBool]
    · rename_i sent hreq
      simp [hclient, hreq, ApiEvent.SendsOrder, Except.isOk, Except.toBool]

theorem getBalance_sends_none (id : Nat) (arrival : Arrival) (cache : JwksCache) :
    ¬ ∃ e ∈ (api.getBalance id arrival cache).events, e.SendsOrder := by
  simp only [getBalance]
  split
  · simp [ApiEvent.SendsOrder]
  · split <;> simp [ApiEvent.SendsOrder]

theorem getPage_sends_none (id : Nat) (arrival : Arrival) (cache : JwksCache) :
    ¬ ∃ e ∈ (api.getPage id arrival cache).events, e.SendsOrder := by
  simp only [getPage]
  split
  · split <;> simp [ApiEvent.SendsOrder]
  · simp [ApiEvent.SendsOrder]

/-- A validated body is placeable, up to the price of a limit order. -/
theorem toPlaceOrder_placeable_iff (body : OrderRequestDto) :
    body.toPlaceOrder.Placeable ↔ (body.orderType = .limit → 0 < body.price) :=
  ⟨fun h => h.2.2, fun h => ⟨body.action_side, body.quantity_pos, h⟩⟩

theorem handle_sends_iff (id : Nat) (arrival : Arrival) (cache : JwksCache) :
    (∃ e ∈ (api.handle id arrival cache).events, e.SendsOrder) ↔ api.SubmitsOrder arrival := by
  simp only [handle, SubmitsOrder]
  split
  · rename_i hbody
    refine iff_of_false (by simp [ApiEvent.SendsOrder]) ?_
    rintro ⟨-, -, body, hb, -⟩
    rw [hbody] at hb
    cases hb
  · rename_i body hbody
    rw [postOrder_sends_iff]
    simp only [KisOrderClient.request_isOk_iff, toPlaceOrder_placeable_iff, hbody,
      Endpoint.order.injEq, Option.some.injEq, Option.isSome_iff_exists]
    constructor
    · rintro ⟨client, hclient, hprice, htoken⟩
      exact ⟨⟨client, hclient⟩, htoken, body, rfl, hprice⟩
    · rintro ⟨⟨client, hclient⟩, htoken, _, rfl, hprice⟩
      exact ⟨client, hclient, hprice, htoken⟩
  · rename_i hbalance
    refine iff_of_false (getBalance_sends_none id arrival cache) ?_
    rintro ⟨-, -, body, hb, -⟩
    rw [hbalance] at hb
    cases hb
  · rename_i hnone hsome hbalance
    refine iff_of_false (getPage_sends_none id arrival cache) ?_
    rintro ⟨-, -, body, hb, -⟩
    exact hsome body hb

/-- The step is a request that sends an order. -/
def StepSubmits (api : Api) : ApiLabel → Prop
  | .request arrival => api.SubmitsOrder arrival
  | .answer _ _ _ _ => False

theorem step_submits_iff {s t : ApiState} {l : ApiLabel} {es : List ApiEvent}
    (h : api.step s l = some (t, es)) : (∀ e ∈ es, ¬ e.SendsOrder) ↔ ¬ api.StepSubmits l := by
  obtain ⟨arrival, rfl, rfl, -, -⟩ | ⟨id, sent, now, mockId, pending, rfl, -, -, -, rfl⟩ :=
    step_cases h
  · rw [StepSubmits, ← handle_sends_iff s.started arrival s.cache]
    simp only [not_exists, not_and]
  · exact iff_of_true (by simp [ApiEvent.SendsOrder]) not_false

theorem run_submits_iff {s t : ApiState} {ls : List ApiLabel} {tr : List ApiEvent}
    (hr : api.machine.run s ls = some (t, tr)) :
    (∀ e ∈ tr, ¬ e.SendsOrder) ↔ ∀ l ∈ ls, ¬ api.StepSubmits l := by
  rw [← Machine.along_iff_forall hr]
  exact Machine.run_avoids_iff (I := fun _ => True) (fun _ _ _ _ _ _ => trivial)
    (fun _ _ _ _ _ h => step_submits_iff h) trivial hr

end Api

/-! ### The system -/

/-- The pipeline, called by any publishers, beside the API. -/
def system {W : Type*} (p : TradingPipeline W) (api : Api) :
    Machine (InterleavedState W × ApiState) (TickLabel W ⊕ ApiLabel)
      (PipelineEvent ⊕ ApiEvent) :=
  p.interleaved.interleave api.machine

/-- An order goes to a broker: the executor calls its client, or the API sends one to KIS. -/
def SendsOrder : PipelineEvent ⊕ ApiEvent → Prop
  | .inl e => e.call?.isSome = true
  | .inr e => e.SendsOrder

/-- With `allow_live_orders` off, no order is sent in a run exactly when no request of the
run submits one to the order route. -/
theorem switched_off_no_order_iff {W : Type*} {p : TradingPipeline W} {api : Api}
    {settings : TradingSettings} (hoff : settings.allowLiveOrders = false)
    (hp : p.executor.allowLiveOrders = settings.allowLiveOrders)
    {s t : InterleavedState W × ApiState} {ls : List (TickLabel W ⊕ ApiLabel)}
    {tr : List (PipelineEvent ⊕ ApiEvent)} (hr : (system p api).run s ls = some (t, tr)) :
    (∀ e ∈ tr, ¬ SendsOrder e) ↔
      ∀ arrival, .inr (.request arrival) ∈ ls → ¬ api.SubmitsOrder arrival := by
  obtain ⟨htick, hapi⟩ := Machine.run_interleave hr
  have horders := TradingPipeline.interleaved_ordersOf (hp.trans hoff) htick
  have hsubmits := Api.run_submits_iff hapi
  constructor
  · intro h arrival hmem
    have hnone : ∀ e ∈ Machine.rights tr, ¬ e.SendsOrder :=
      fun e he => h (.inr e) (Machine.mem_rights_iff.mp he)
    exact hsubmits.mp hnone _ (Machine.mem_rights_iff.mpr hmem)
  · intro h e he
    cases e with
    | inl e =>
        intro hcall
        obtain ⟨call, hcall⟩ := Option.isSome_iff_exists.mp hcall
        have hmem : call ∈ ordersOf (Machine.lefts tr) :=
          List.mem_filterMap.mpr ⟨e, Machine.mem_lefts_iff.mpr he, hcall⟩
        rw [horders] at hmem
        cases hmem
    | inr e =>
        refine hsubmits.mpr (fun l hl => ?_) e (Machine.mem_rights_iff.mpr he)
        cases l with
        | request arrival => exact h arrival (Machine.mem_rights_iff.mp hl)
        | answer id sent now mockId => exact not_false

/-! ### An order with the switch off -/

/-- The wired stack around a steady agent, with the default settings. -/
def shadowPipeline : TradingPipeline Unit where
  coordinator := steadyCoordinator .buy
  guardrails := mainGuards
  executor :=
    ⟨noopOrderClient, TradingSettings.allowLiveOrders {}, (steadyPipeline .buy).executor.sizer⟩

def tickThenBalance : List (TickLabel Unit ⊕ ApiLabel) :=
  [.inl (.arrive 0 sampleTick (sampleTime openingMinute)), .inr (.request (Api.anonymous .balance))]

/-- A tick and a balance request send no order. -/
theorem tick_then_balance_sends_none : ∃ t tr,
    (system shadowPipeline Api.productionApi).run (.initial emptyContext 0, {}) tickThenBalance =
        some (t, tr) ∧
      ∀ e ∈ tr, ¬ SendsOrder e := by
  have hoff : TradingSettings.allowLiveOrders {} = false := rfl
  have hp : shadowPipeline.executor.allowLiveOrders = TradingSettings.allowLiveOrders {} := rfl
  obtain ⟨t, tr, hrun⟩ : ∃ t tr, (system shadowPipeline Api.productionApi).run
      (.initial emptyContext 0, {}) tickThenBalance = some (t, tr) := ⟨_, _, rfl⟩
  refine ⟨t, tr, hrun, (switched_off_no_order_iff hoff hp hrun).mpr ?_⟩
  simp [tickThenBalance, Api.SubmitsOrder, Api.anonymous]

/-- With the default settings, a valid order body makes the API send an order. -/
theorem manual_order_sent : ∃ t call sent,
    TradingSettings.allowLiveOrders {} = false ∧
      (system shadowPipeline Api.productionApi).run (.initial emptyContext 0, {})
        [.inr (.request (Api.anonymous (.order (some Api.buyTen))))] =
          some (t, [.inr (.called 0 call), .inr (.orderSent 0 sent)]) ∧
      SendsOrder (.inr (.orderSent 0 sent)) :=
  ⟨_, _, _, rfl, rfl, trivial⟩

end NexusBackend
