import NexusBackend.Trading.ContextWindows
import NexusBackend.Trading.Interleaving

/-!
The volatility breaker on the prices that a tick brings along, against the complete prices of
its symbol. Between the two stand the bound of the context, the window of the pipeline and the
window of the guard.
-/
namespace NexusBackend

open Python Transition

/-- Every price that was recorded for the symbol. -/
def pricesOf (symbol : Text) (ticks : List Tick) : List Decimal :=
  (historyOf symbol ticks).map (·.price)

namespace VolatilityCircuitBreaker

/-- `check` with the indices that it uses, each of which may be out of range. -/
def checkIndexed (g : VolatilityCircuitBreaker) (signal : TradeSignal) (context : GuardContext) :
    Except Exn GuardDecision :=
  let prices := (context.recentPrices.lookup signal.symbol).getD []
  if prices.length < 4 then .ok .allow
  else do
    let window := (prices.rtake g.windowSize).map Decimal.toRat
    let prev ← itemAt window (-2)
    let last ← itemAt window (-1)
    let drop := (prev - last) / prev
    if 0 < prev ∧ g.maxDropPct < drop then
      GuardDecision.block (dropReason signal.symbol prev last drop g.maxDropPct)
    else
      let m := mean window
      let cvSquared := variance window / (m * m)
      if 0 < m ∧ g.maxCvPct * g.maxCvPct < cvSquared then
        GuardDecision.block (cvReason signal.symbol cvSquared window.length g.maxCvPct)
      else .ok .allow

/-- No index is out of range. -/
theorem checkIndexed_eq_check (g : VolatilityCircuitBreaker) (signal : TradeSignal)
    (context : GuardContext) : g.checkIndexed signal context = g.check signal context := by
  have hwindow := g.windowSize_ge
  simp only [checkIndexed, check]
  split
  · rfl
  · rename_i hlength
    have hlast : 2 ≤ ((((context.recentPrices.lookup signal.symbol).getD []).rtake
        g.windowSize).map Decimal.toRat).length := by
      rw [List.length_map, length_rtake]
      omega
    have hprev := itemAt_last (0 : ℚ) Nat.zero_lt_two hlast
    have hone := itemAt_last (0 : ℚ) Nat.zero_lt_one (Nat.le_of_succ_le hlast)
    simp only [Nat.cast_ofNat, Nat.cast_one] at hprev hone
    rw [hprev, hone]
    rfl

theorem block_returns {reason : Text} (h : reason ≠ []) :
    GuardDecision.block reason = .ok ⟨false, reason⟩ := by
  rw [GuardDecision.block, if_neg h]

theorem check_returns (g : VolatilityCircuitBreaker) (signal : TradeSignal)
    (context : GuardContext) : ∃ decision, g.check signal context = .ok decision := by
  simp only [check]
  split_ifs
  · exact ⟨_, rfl⟩
  · exact ⟨_, block_returns (by simp [dropReason, text])⟩
  · exact ⟨_, block_returns (by simp [cvReason, text])⟩
  · exact ⟨_, rfl⟩

/-- The verdict depends on whether there are four prices, and on the last ones. -/
theorem check_congr (g : VolatilityCircuitBreaker) {signal : TradeSignal}
    {context other : GuardContext} {prices more : List Decimal}
    (hprices : context.recentPrices.lookup signal.symbol = some prices)
    (hmore : other.recentPrices.lookup signal.symbol = some more)
    (hlength : prices.length < 4 ↔ more.length < 4)
    (hwindow : prices.rtake g.windowSize = more.rtake g.windowSize) :
    g.check signal context = g.check signal other := by
  have hdrop : prices.drop (prices.length - g.windowSize) =
      more.drop (more.length - g.windowSize) := hwindow
  simp only [check, hprices, hmore, Option.getD_some, hlength, hdrop]

/-- A window that holds four prices and the guard's own window is as good as all prices. -/
theorem check_window (g : VolatilityCircuitBreaker) {signal : TradeSignal}
    {context other : GuardContext} {prices : List Decimal} {n : Nat}
    (hfour : 4 ≤ n) (hguard : g.windowSize ≤ n)
    (hwindow : context.recentPrices.lookup signal.symbol = some (prices.rtake n))
    (hall : other.recentPrices.lookup signal.symbol = some prices) :
    g.check signal context = g.check signal other := by
  refine g.check_congr hwindow hall ?_ ?_
  · rw [length_rtake]
    omega
  · rw [rtake_rtake, Nat.min_eq_left hguard]

end VolatilityCircuitBreaker

/-! ### Ticks that arrive -/

def TickLabel.arrival? {W : Type*} : TickLabel W → Option Tick
  | .arrive _ tick _ => some tick
  | .resume .. => none

/-- The ticks that have arrived. -/
def arrivals {W : Type*} (ls : List (TickLabel W)) : List Tick := ls.filterMap TickLabel.arrival?

namespace TradingPipeline

variable {W : Type*} {p : TradingPipeline W}

/-! ### Only an arrival changes the windows -/

theorem applyResult_context {s s' : PipelineState} {result : ExecutionResult}
    {fills : List PipelineEvent} (h : applyResult s result = .ok (s', fills)) :
    s'.context = s.context := by
  simp only [applyResult] at h
  split at h
  · generalize s.portfolio.recordFill _ = recorded at h
    cases recorded with
    | error e => cases h
    | ok portfolio =>
        cases h
        rfl
  · cases h
    rfl

theorem toAudit_context (s : PipelineState) (signal : TradeSignal) (guarded : GuardedSignal)
    (result : ExecutionResult) (before : List PipelineEvent) :
    (p.toAudit s signal guarded result before).pipeline.context = s.context := by
  simp only [toAudit]
  split
  · rfl
  · rename_i s' fills happly
    split
    · exact applyResult_context happly
    · exact applyResult_context happly

theorem toBroker_context (s : PipelineState) (w : W) (signal : TradeSignal)
    (guarded : GuardedSignal) (executeAt : UtcTime) :
    (p.toBroker s w signal guarded executeAt).pipeline.context = s.context := by
  simp only [toBroker]
  split
  · rfl
  · exact toAudit_context ..
  · rfl

theorem toGuards_context (s : PipelineState) (w : W) (signal : TradeSignal) (executeAt : UtcTime)
    (guards : List (OrderGuardrail W)) :
    (p.toGuards s w signal executeAt guards).pipeline.context = s.context := by
  cases guards with
  | nil => exact toBroker_context ..
  | cons guard rest => rfl

theorem advance_context (s : PipelineState) (task : TickTask W) (w : W)
    (signalAt executeAt : UtcTime) :
    (p.advance s task w signalAt executeAt).pipeline.context = s.context := by
  simp only [advance]
  split
  · split
    · exact toBroker_context ..
    · exact toGuards_context ..
  · split
    · rfl
    · split
      · exact toBroker_context ..
      · exact toGuards_context ..
  · exact toAudit_context ..
  · split
    · rfl
    · split <;> rfl

/-! ### What a task sees -/

/-- The windows hold the ends of the histories of what has arrived. -/
theorem step_windows {m : Nat} {s t : InterleavedState W} {ls : List (TickLabel W)}
    {l : TickLabel W} {es : List PipelineEvent}
    (h : s.pipeline.context.Holds m (arrivals ls)) (hstep : p.interleavedStep s l = some (t, es)) :
    t.pipeline.context.Holds m (arrivals (ls ++ [l])) := by
  cases stepped hstep with
  | arrive id tick snapshotAt free next quiet =>
      have harrivals : arrivals (ls ++ [.arrive id tick snapshotAt]) = arrivals ls ++ [tick] :=
        List.filterMap_append
      rw [harrivals, next]
      exact h.record tick
  | resume id w signalAt executeAt task runs next events =>
      have harrivals : arrivals (ls ++ [.resume id w signalAt executeAt]) = arrivals ls := by
        rw [arrivals, List.filterMap_append]
        exact List.append_nil _
      rw [harrivals, next, advance_context]
      exact h

/-- The label starts the task. -/
def Starts (id : Nat) (l : TickLabel W) : Prop :=
  ∃ tick snapshotAt, l = .arrive id tick snapshotAt

/-- The task, while it is there, has this snapshot. -/
def HasSnapshot (id : Nat) (snapshot : GuardContext) (s : InterleavedState W) : Prop :=
  ∀ task, s.tasks id = some task → task.context = snapshot

theorem step_snapshot {id : Nat} {snapshot : GuardContext} {s t : InterleavedState W}
    {l : TickLabel W} {es : List PipelineEvent} (hl : ¬ Starts id l)
    (h : HasSnapshot id snapshot s)
    (hstep : p.interleavedStep s l = some (t, es)) : HasSnapshot id snapshot t := by
  intro task htask
  cases stepped hstep with
  | arrive k tick snapshotAt free next quiet =>
      have hk : id ≠ k := by
        rintro rfl
        exact hl ⟨tick, snapshotAt, rfl⟩
      subst next
      simp only [Function.update_of_ne hk] at htask
      exact h task htask
  | resume k w signalAt executeAt resumed runs next events =>
      subst next
      by_cases hk : id = k
      · subst hk
        simp only [Function.update_self, Option.map_eq_some_iff] at htask
        obtain ⟨phase, -, rfl⟩ := htask
        exact h resumed runs
      · simp only [Function.update_of_ne hk] at htask
        exact h task htask

theorem begin_prices {s : PipelineState} {m : Nat} {ticks : List Tick}
    (h : s.context.Holds m ticks) (hpos : 0 < p.volatilityWindow) (hmax : p.volatilityWindow ≤ m)
    (tick : Tick) (snapshotAt : UtcTime) :
    (p.begin s tick snapshotAt).2.context.recentPrices.lookup tick.symbol =
      some ((pricesOf tick.symbol (ticks ++ [tick])).rtake p.volatilityWindow.toNat) := by
  have hlookup : (p.begin s tick snapshotAt).2.context.recentPrices.lookup tick.symbol =
      some ((s.context.record tick).recentPrices tick.symbol (some p.volatilityWindow)) :=
    Finmap.lookup_singleton_eq
  have hrecent := (h.record tick).recentTicks_pos tick.symbol
    (show 0 < p.volatilityWindow.toNat by omega)
  rw [Int.toNat_of_nonneg hpos.le, Nat.min_eq_left (by omega)] at hrecent
  rw [hlookup, TickContext.recentPrices, hrecent, ← rtake_map]
  rfl

/-- The prices of a snapshot are the last ones of the tick's symbol when it arrived. -/
theorem run_prices {context : TickContext} (hfresh : context.bySymbol = ∅)
    (hpos : 0 < p.volatilityWindow) (hmax : p.volatilityWindow ≤ context.maxWindow) {clock : Int}
    {before after : List (TickLabel W)} {id : Nat} {tick : Tick} {snapshotAt : UtcTime}
    {s : InterleavedState W} {tr : List PipelineEvent}
    (hr : p.interleaved.run (.initial context clock)
      (before ++ .arrive id tick snapshotAt :: after) = some (s, tr))
    (honce : ∀ l ∈ after, ¬ Starts id l) {task : TickTask W} (htask : s.tasks id = some task) :
    task.context.recentPrices.lookup tick.symbol =
      some ((pricesOf tick.symbol (arrivals before ++ [tick])).rtake
        p.volatilityWindow.toNat) := by
  obtain ⟨s₁, es, fs, hbefore, hrest, -⟩ := Machine.run_append _ |>.mp hr
  obtain ⟨s₂, es', fs', harrive, hafter, -⟩ := (Machine.run_cons _ _ _ _).mp hrest
  have hstart : (InterleavedState.initial (W := W) context clock).pipeline.context.Holds
      context.maxWindow (arrivals (W := W) []) := TickContext.holds_fresh hfresh
  have hwindows := Machine.run_invariant_labels
    (I := fun (s : InterleavedState W) ls => s.pipeline.context.Holds context.maxWindow
      (arrivals ls)) (fun _ _ _ _ _ h hstep => step_windows h hstep) hstart hbefore
  rw [List.nil_append] at hwindows
  have hbegun : HasSnapshot id (p.begin s₁.pipeline tick snapshotAt).2.context s₂ := by
    intro task' htask'
    have harrived : p.Stepped s₁ s₂ es' (.arrive id tick snapshotAt) := stepped harrive
    cases harrived with
    | arrive _ _ _ free next quiet =>
        subst next
        simp only [Function.update_self, Option.some.injEq] at htask'
        rw [htask']
  have hkept := Machine.throughout_last
    (Machine.throughout_of_invariant_along
      (I := HasSnapshot id (p.begin s₁.pipeline tick snapshotAt).2.context)
      (C := fun _ l => ¬ Starts id l) (fun _ h => h)
      (fun _ _ _ _ hl h hstep => step_snapshot hl h hstep) after hbegun
      ((Machine.along_iff_forall hafter).mpr honce)) hafter
  rw [hkept task htask]
  exact begin_prices hwindows hpos hmax tick snapshotAt

/-- The snapshot with all prices that the symbol of the tick had so far. -/
def withHistory (snapshot : GuardContext) (tick : Tick) (earlier : List Tick) : GuardContext :=
  { snapshot with
    recentPrices := Finmap.singleton tick.symbol (pricesOf tick.symbol (earlier ++ [tick])) }

theorem make_emptyContext : TickContext.make 256 = .ok emptyContext := rfl

def sampleHold : TradeSignal := .holdDefault sampleTick.symbol [] (sampleTime openingMinute)

def openingTask : TickTask Unit :=
  ((steadyPipeline .buy).begin (.initial emptyContext) sampleTick (sampleTime openingMinute)).2

end TradingPipeline
end NexusBackend
