import NexusBackend.Library.ReflectedWalk
import NexusBackend.Trading.Wiring

/-!
Runs of ticks that follow one another. Each result is the consequence, over a
whole run, of the two ways one tick can leave the books: quiet, or with one call
and at most one fill. Ticks that overlap are not covered here.
-/
namespace NexusBackend

open Python Transition

namespace TradingPipeline

variable {W : Type*} (p : TradingPipeline W)

/-- The account a tick gives of itself. -/
structure TickAccounts (s : PipelineState) (inp : TickInput W) : Prop where
  returns : (p.onTick s inp).result = .ok ()
  at_most_one : (ordersOf (p.onTick s inp).events).length ≤ 1
  order_iff : ∀ call, call ∈ ordersOf (p.onTick s inp).events ↔ p.OrderDue s inp call
  fills_of_success : ∀ call, p.OrderDue s inp call →
    OrderExecutor.succeeded (p.answer inp call) = true →
      fillsOf (p.onTick s inp).events = [inp.fillOf call] ∧
        s.portfolio.recordFill (inp.fillOf call) = .ok (p.onTick s inp).state.portfolio
  unchanged_otherwise :
    (¬ ∃ call, p.OrderDue s inp call ∧ OrderExecutor.succeeded (p.answer inp call) = true) →
      fillsOf (p.onTick s inp).events = [] ∧ (p.onTick s inp).state.portfolio = s.portfolio

theorem onTick_accounts (s : PipelineState) (inp : TickInput W) : p.TickAccounts s inp := by
  by_cases hdue : ∃ call, p.OrderDue s inp call
  · obtain ⟨call, hcall⟩ := hdue
    have hl := p.onTick_ordered hcall
    have honly : ∀ d, p.OrderDue s inp d → d = call := fun d hd => hd.unique p hcall
    refine ⟨p.onTick_returns s inp, ?_, ?_, ?_, ?_⟩
    · simp [hl.orders_eq]
    · intro d
      rw [hl.orders_eq, List.mem_singleton]
      exact ⟨fun h => h ▸ hcall, honly d⟩
    · intro d hd hs
      obtain rfl := honly d hd
      have hf := hl.fills_eq
      have hp := hl.portfolio_eq
      rw [if_pos hs] at hf hp
      refine ⟨hf, ?_⟩
      rw [hp, Portfolio.recordFill_eq_ok _ hd.size_pos]
      · rfl
      · intro hold
        exact hd.direction (hd.action.symm.trans hold)
    · intro hno
      have hs : ¬ OrderExecutor.succeeded (p.answer inp call) = true :=
        fun h => hno ⟨call, hcall, h⟩
      have hf := hl.fills_eq
      have hp := hl.portfolio_eq
      rw [if_neg hs] at hf hp
      exact ⟨hf, hp⟩
  · have hl := p.onTick_quiet (fun call hcall => hdue ⟨call, hcall⟩)
    refine ⟨p.onTick_returns s inp, ?_, ?_, ?_, ?_⟩
    · simp [hl.orders_eq]
    · intro d
      rw [hl.orders_eq]
      exact ⟨fun h => absurd h (List.not_mem_nil), fun h => absurd ⟨d, h⟩ hdue⟩
    · intro d hd
      exact absurd ⟨d, hd⟩ hdue
    · intro _
      exact ⟨hl.fills_eq, hl.portfolio_eq⟩

/-- A tick leaves the books unchanged, or with the one fill of a successful call. -/
theorem onTick_books (s : PipelineState) (inp : TickInput W) :
    (∃ orders, Leaves s.portfolio s.executedCount (p.onTick s inp) orders [] []) ∨
      ∃ call, p.OrderDue s inp call ∧
        Leaves s.portfolio s.executedCount (p.onTick s inp) [call] [call] [inp.fillOf call] := by
  by_cases hdue : ∃ call, p.OrderDue s inp call
  · obtain ⟨call, hcall⟩ := hdue
    have hl := p.onTick_ordered hcall
    by_cases hs : OrderExecutor.succeeded (p.answer inp call) = true
    · rw [if_pos hs, if_pos hs] at hl
      exact .inr ⟨call, hcall, hl⟩
    · rw [if_neg hs, if_neg hs] at hl
      exact .inl ⟨[call], hl⟩
  · exact .inl ⟨[], p.onTick_quiet (fun call hcall => hdue ⟨call, hcall⟩)⟩

variable {p}

theorem sequential_step {s s' : PipelineState} {inp : TickInput W} {es : List PipelineEvent}
    (h : p.sequential.step s inp = some (s', es)) :
    s' = (p.onTick s inp).state ∧ es = (p.onTick s inp).events := by
  cases h
  exact ⟨rfl, rfl⟩

/-- The count of executions is the number of successful calls. -/
theorem sequential_executedCount {context : TickContext} {ls : List (TickInput W)}
    {s : PipelineState} {tr : List PipelineEvent}
    (hr : p.sequential.run (.initial context) ls = some (s, tr)) :
    s.executedCount = (successesOf tr).length := by
  refine Machine.run_invariant (I := fun s tr => s.executedCount = (successesOf tr).length)
    ?_ rfl hr
  intro s inp s' es tr hI hstep
  obtain ⟨rfl, rfl⟩ := sequential_step hstep
  rw [successesOf_append]
  rcases p.onTick_books s inp with ⟨orders, hl⟩ | ⟨call, -, hl⟩
  · rw [hl.executed_eq, hl.successes_eq, hI]
    simp
  · rw [hl.executed_eq, hl.successes_eq, hI]
    simp

/-- Over every run, each tick accounts for its call and its fill, and the count of
executions is the number of successful calls so far. -/
theorem sequential_run_accounts {context : TickContext} {ls : List (TickInput W)}
    {s : PipelineState} {tr : List PipelineEvent}
    (hr : p.sequential.run (.initial context) ls = some (s, tr)) :
    s.executedCount = (successesOf tr).length ∧ ∀ inp, p.TickAccounts s inp :=
  ⟨sequential_executedCount hr, p.onTick_accounts s⟩

theorem steady_buy_accounts : ∃ s tr,
    (steadyPipeline .buy).sequential.run (.initial emptyContext)
        [sampleInput 0, sampleInput 5] = some (s, tr) ∧
      (successesOf tr).length = 2 ∧ s.executedCount = (successesOf tr).length ∧
        ∀ inp, (steadyPipeline .buy).TickAccounts s inp := by
  refine ⟨_, _, rfl, ?_, @sequential_run_accounts _ _ _ [sampleInput 0, sampleInput 5] _ _ rfl⟩
  decide +kernel

/-! ### Bounds on the position -/

/-- No run makes a position negative. -/
theorem sequential_longOnly {context : TickContext} {ls : List (TickInput W)}
    {s : PipelineState} {tr : List PipelineEvent}
    (hr : p.sequential.run (.initial context) ls = some (s, tr)) : s.portfolio.LongOnly := by
  refine Machine.run_invariant (I := fun s _ => s.portfolio.LongOnly) ?_
    Portfolio.longOnly_empty hr
  intro s inp s' es tr hI hstep
  obtain ⟨rfl, rfl⟩ := sequential_step hstep
  rcases p.onTick_books s inp with ⟨orders, hl⟩ | ⟨call, hdue, hl⟩
  · rw [hl.portfolio_eq]
    exact hI
  · rw [hl.portfolio_eq]
    exact hI.applyFill hdue.size_pos

/-- A guard on the position lets a BUY pass only below its limit. -/
theorem maxPosition_allows_buy {g : MaxPositionSizeGuard} {w : W} {signal : TradeSignal}
    {context : GuardContext} (hbuy : signal.action = .buy)
    (h : GuardrailPipeline.Allows w signal context g.toGuard) :
    (context.positions.lookup signal.symbol).getD 0 < g.maxShares := by
  obtain ⟨decision, hcheck, hallowed⟩ := h
  change g.check signal context = .ok decision at hcheck
  rw [MaxPositionSizeGuard.check] at hcheck
  rw [if_neg (by simp [hbuy])] at hcheck
  dsimp only at hcheck
  split at hcheck
  · rw [GuardDecision.block] at hcheck
    split at hcheck
    · cases hcheck
    · cases hcheck
      cases hallowed
  · rename_i hlt
    exact not_le.mp hlt

/-- Positions never become negative, and a BUY that is executed leaves at most
one order above what the guard on the position would still let pass. -/
theorem sequential_position_bound {g : MaxPositionSizeGuard} {Q : Int}
    (hguard : g.toGuard ∈ p.guardrails.guards)
    (hsize : ∀ w signal n, p.executor.sizer.quantity w signal = .ok n → n ≤ Q)
    {context : TickContext} {ls : List (TickInput W)} {s : PipelineState}
    {tr : List PipelineEvent} (hr : p.sequential.run (.initial context) ls = some (s, tr)) :
    (∀ symbol, 0 ≤ s.portfolio.positionOf symbol) ∧
      ∀ inp, ∀ fill ∈ fillsOf (p.onTick s inp).events, fill.action = .buy →
        (p.onTick s inp).state.portfolio.positionOf fill.symbol ≤ g.maxShares - 1 + Q := by
  refine ⟨sequential_longOnly hr, ?_⟩
  intro inp fill hfill hbuy
  rcases p.onTick_books s inp with ⟨orders, hl⟩ | ⟨call, hdue, hl⟩
  · rw [hl.fills_eq] at hfill
    exact absurd hfill (List.not_mem_nil)
  · rw [hl.fills_eq, List.mem_singleton] at hfill
    subst hfill
    have hdir : (p.decision inp).action = .buy := hdue.action.symm.trans hbuy
    have hheld := maxPosition_allows_buy hdir (hdue.consent _ hguard)
    have hsym : (p.decision inp).symbol = call.symbol :=
      (TradingCoordinator.evaluate_symbol _ _ _ _).trans hdue.symbol.symm
    rw [hsym] at hheld
    have hq : call.quantity ≤ Q := hsize _ _ _ hdue.size
    have hpos : (p.onTick s inp).state.portfolio.positionOf call.symbol =
        s.portfolio.positionOf call.symbol + call.quantity := by
      rw [hl.portfolio_eq]
      change (s.portfolio.applyFill (inp.fillOf call)).positionOf (inp.fillOf call).symbol = _
      rw [Portfolio.positionOf_applyFill_self]
      exact if_pos hbuy
    change (p.onTick s inp).state.portfolio.positionOf call.symbol ≤ _
    change s.portfolio.positionOf call.symbol < g.maxShares at hheld
    omega

theorem steady_size {action : Action} (w : Unit) (signal : TradeSignal) (n : Int)
    (h : (steadyPipeline action).executor.sizer.quantity w signal = .ok n) : n ≤ 1 := by
  cases h
  exact le_refl 1

theorem steady_buy_bound : ∃ s tr,
    (steadyPipeline .buy).sequential.run (.initial emptyContext)
        [sampleInput 0] = some (s, tr) ∧
      (∀ symbol, 0 ≤ s.portfolio.positionOf symbol) ∧
        ∀ inp, ∀ fill ∈ fillsOf ((steadyPipeline .buy).onTick s inp).events,
          fill.action = .buy →
            ((steadyPipeline .buy).onTick s inp).state.portfolio.positionOf fill.symbol ≤
              1000 - 1 + 1 :=
  ⟨_, _, rfl, @sequential_position_bound _ _ mainMaxPosition 1 List.mem_cons_self
    steady_size _ [sampleInput 0] _ _ rfl⟩

/-! ### Position and net of the orders -/

/-- What a successful call moves in the account at the broker. -/
def signedQuantity (call : OrderCall) : Int :=
  if call.action = .buy then call.quantity else -call.quantity

/-- The moves of one symbol, in the order of the calls. -/
def movesOf (symbol : Text) (calls : List OrderCall) : List Int :=
  calls.filterMap fun call => if call.symbol = symbol then some (signedQuantity call) else none

/-- Every sale of the symbol was covered by the position held when it was made. -/
def SalesCovered (symbol : Text) (calls : List OrderCall) : Prop :=
  ∀ before call after, calls = before ++ call :: after → call.symbol = symbol →
    call.action ≠ .buy → call.quantity ≤ ReflectedWalk.position (movesOf symbol before)

theorem movesOf_concat (symbol : Text) (calls : List OrderCall) (call : OrderCall) :
    movesOf symbol (calls ++ [call]) =
      movesOf symbol calls ++ if call.symbol = symbol then [signedQuantity call] else [] := by
  simp only [movesOf]
  rw [List.filterMap_append]
  split <;> simp [*]

theorem nextPosition_eq_clamped {current quantity : Int} (action : Action) (hc : 0 ≤ current)
    (hq : 0 < quantity) :
    Portfolio.nextPosition current action quantity =
      max 0 (current + if action = .buy then quantity else -quantity) := by
  simp only [Portfolio.nextPosition]
  split <;> omega

/-- The position is the walk of the successful orders, clamped at zero. -/
theorem sequential_position_eq {context : TickContext} {ls : List (TickInput W)}
    {s : PipelineState} {tr : List PipelineEvent}
    (hr : p.sequential.run (.initial context) ls = some (s, tr)) (symbol : Text) :
    s.portfolio.positionOf symbol = ReflectedWalk.position (movesOf symbol (successesOf tr)) := by
  refine (Machine.run_invariant (I := fun s tr => s.portfolio.LongOnly ∧
    s.portfolio.positionOf symbol = ReflectedWalk.position (movesOf symbol (successesOf tr)))
    ?_ ⟨Portfolio.longOnly_empty, by simp [PipelineState.initial, movesOf, successesOf]⟩ hr).2
  rintro s inp s' es tr ⟨hlong, hpos⟩ hstep
  obtain ⟨rfl, rfl⟩ := sequential_step hstep
  rw [successesOf_append]
  rcases p.onTick_books s inp with ⟨orders, hl⟩ | ⟨call, hdue, hl⟩
  · rw [hl.portfolio_eq, hl.successes_eq, List.append_nil]
    exact ⟨hlong, hpos⟩
  · rw [hl.portfolio_eq, hl.successes_eq, movesOf_concat]
    refine ⟨hlong.applyFill hdue.size_pos, ?_⟩
    change (s.portfolio.applyFill (inp.fillOf call)).positionOf symbol = _
    rw [Portfolio.positionOf_applyFill]
    simp only [Portfolio.ledgerStep]
    change (if call.symbol = symbol then _ else _) = _
    by_cases hsym : call.symbol = symbol
    · rw [if_pos hsym, if_pos hsym, ReflectedWalk.position_concat, ← hpos]
      exact nextPosition_eq_clamped call.action (hlong symbol) hdue.size_pos
    · rw [if_neg hsym, if_neg hsym, List.append_nil, hpos]

/-- What the successful orders for the symbol come to at the broker. -/
def netOf (symbol : Text) (calls : List OrderCall) : Int := (movesOf symbol calls).sum

/-- Only a sale can be clamped. -/
theorem unclamped_movesOf_iff (symbol : Text) {calls : List OrderCall}
    (hpos : ∀ call ∈ calls, 0 < call.quantity) :
    ReflectedWalk.Unclamped (movesOf symbol calls) ↔ SalesCovered symbol calls := by
  constructor
  · rintro h before call after rfl hsym hsell
    have hmoves : movesOf symbol (before ++ call :: after) =
        movesOf symbol before ++ signedQuantity call :: movesOf symbol after := by
      simp [movesOf, hsym]
    have hle := h _ _ _ hmoves
    rw [signedQuantity, if_neg hsell] at hle
    omega
  · intro h before x after heq
    obtain ⟨l₁, l₂, rfl, rfl, hrest⟩ := List.filterMap_eq_append_iff.mp heq
    obtain ⟨skipped, call, l₃, rfl, hnone, hsome, -⟩ := List.filterMap_eq_cons_iff.mp hrest
    have hsym : call.symbol = symbol := by
      by_contra hne
      simp [hne] at hsome
    have hx : signedQuantity call = x := by simpa [hsym] using hsome
    have hmem : 0 < call.quantity := hpos call (by simp)
    have hskip : movesOf symbol (l₁ ++ skipped) = movesOf symbol l₁ := by
      simp only [movesOf]
      rw [List.filterMap_append, List.filterMap_eq_nil_iff.mpr hnone, List.append_nil]
    have hnonneg := ReflectedWalk.position_nonneg (movesOf symbol l₁)
    change 0 ≤ ReflectedWalk.position (movesOf symbol l₁) + x
    by_cases hbuy : call.action = .buy
    · rw [signedQuantity, if_pos hbuy] at hx
      omega
    · have hcov := h (l₁ ++ skipped) call l₃ (by simp) hsym hbuy
      rw [hskip] at hcov
      rw [signedQuantity, if_neg hbuy] at hx
      omega

theorem sequential_quantity_pos {context : TickContext} {ls : List (TickInput W)}
    {s : PipelineState} {tr : List PipelineEvent}
    (hr : p.sequential.run (.initial context) ls = some (s, tr)) :
    ∀ call ∈ successesOf tr, 0 < call.quantity := by
  refine Machine.run_invariant (I := fun _ tr => ∀ call ∈ successesOf tr, 0 < call.quantity)
    ?_ (by simp [successesOf]) hr
  intro s inp s' es tr hI hstep
  obtain ⟨rfl, rfl⟩ := sequential_step hstep
  rw [successesOf_append]
  rcases p.onTick_books s inp with ⟨orders, hl⟩ | ⟨call, hdue, hl⟩
  · rw [hl.successes_eq, List.append_nil]
    exact hI
  · rw [hl.successes_eq]
    intro d hd
    rcases List.mem_append.mp hd with hd | hd
    · exact hI d hd
    · rw [List.mem_singleton.mp hd]
      exact hdue.size_pos

end TradingPipeline
end NexusBackend
