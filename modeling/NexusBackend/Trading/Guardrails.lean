import NexusBackend.Trading.Models
import Mathlib.Data.Finmap
import Mathlib.Algebra.BigOperators.Group.List.Basic

/-!
Guards between the decision and the order. A guard is any function of the
signal, the snapshot and what it can observe, `W`, and it may raise; the three
guards of the application are given with the texts of their reasons. Prices and
thresholds are exact, so the coefficient of variation is compared by its square.
-/
namespace NexusBackend

open Python

/-- What the guards see: a snapshot taken before the agents are asked. -/
structure GuardContext where
  positions : Finmap fun _ : Text => Int := ∅
  lastTradeAt : Finmap fun _ : Text => UtcTime := ∅
  recentPrices : Finmap fun _ : Text => List Decimal := ∅
  now : UtcTime

structure GuardDecision where
  allowed : Bool
  reason : Text := []
deriving DecidableEq

namespace GuardDecision

def allow : GuardDecision := ⟨true, []⟩

def block (reason : Text) : Except Exn GuardDecision :=
  if reason = [] then raise .valueError (text "a blocked GuardDecision must carry a reason")
  else .ok ⟨false, reason⟩

end GuardDecision

structure OrderGuardrail (W : Type*) where
  guardId : Text
  check : W → TradeSignal → GuardContext → Except Exn GuardDecision

structure GuardedSignal where
  signal : TradeSignal
  allowed : Bool
  blockedBy : Option Text := none
  reason : Option Text := none
deriving DecidableEq

/-- The signal to act on: turned into HOLD where a guard blocked it. -/
def GuardedSignal.effectiveSignal (g : GuardedSignal) : TradeSignal :=
  if g.allowed then g.signal else { g.signal with action := .hold }

/-! ### The three guards of the application -/

structure MaxPositionSizeGuard where
  maxShares : Int
  maxShares_nonneg : 0 ≤ maxShares

namespace MaxPositionSizeGuard

def make (maxShares : Int) : Except Exn MaxPositionSizeGuard :=
  if h : 0 ≤ maxShares then .ok ⟨maxShares, h⟩
  else raise .valueError (text "max_shares must be >= 0, got " ++ intText maxShares)

def check (g : MaxPositionSizeGuard) (signal : TradeSignal) (context : GuardContext) :
    Except Exn GuardDecision :=
  if signal.action ≠ .buy then .ok .allow
  else
    let held := (context.positions.lookup signal.symbol).getD 0
    if g.maxShares ≤ held then
      GuardDecision.block (text "already holding " ++ intText held ++ text " shares of " ++
        signal.symbol ++
        text ", max is " ++ intText g.maxShares)
    else .ok .allow

def toGuard {W : Type*} (g : MaxPositionSizeGuard) : OrderGuardrail W :=
  ⟨text "max_position_size", fun _ => g.check⟩

end MaxPositionSizeGuard

structure CoolDownGuard where
  cooldownSeconds : ℚ
  cooldown_nonneg : 0 ≤ cooldownSeconds

namespace CoolDownGuard

def make (cooldownSeconds : ℚ) : Except Exn CoolDownGuard :=
  if h : 0 ≤ cooldownSeconds then .ok ⟨cooldownSeconds, h⟩ else raise .valueError

def check (g : CoolDownGuard) (signal : TradeSignal) (context : GuardContext) :
    Except Exn GuardDecision :=
  match context.lastTradeAt.lookup signal.symbol with
  | none => .ok .allow
  | some last =>
      let elapsed := context.now.secondsSince last
      if elapsed < g.cooldownSeconds then
        let remaining := g.cooldownSeconds - elapsed
        GuardDecision.block (signal.symbol ++ text " traded " ++ fixedText 1 elapsed ++
          text "s ago, cooldown requires " ++ fixedText 1 g.cooldownSeconds ++ text "s (" ++
          fixedText 1 remaining ++ text "s remaining)")
      else .ok .allow

def toGuard {W : Type*} (g : CoolDownGuard) : OrderGuardrail W :=
  ⟨text "cooldown", fun _ => g.check⟩

end CoolDownGuard

structure VolatilityCircuitBreaker where
  maxDropPct : ℚ
  maxCvPct : ℚ
  windowSize : Nat
  thresholds_pos : 0 < maxDropPct ∧ 0 < maxCvPct
  windowSize_ge : 2 ≤ windowSize

namespace VolatilityCircuitBreaker

def make (maxDropPct maxCvPct : ℚ) (windowSize : Int) : Except Exn VolatilityCircuitBreaker :=
  if hpos : 0 < maxDropPct ∧ 0 < maxCvPct then
    if hwin : 2 ≤ windowSize then
      .ok ⟨maxDropPct, maxCvPct, windowSize.toNat, hpos, by omega⟩
    else raise .valueError (text "window_size must be >= 2, got " ++ intText windowSize)
  else raise .valueError (text "thresholds must be > 0")

/-- `statistics.fmean`. -/
def mean (xs : List ℚ) : ℚ := xs.sum / xs.length

/-- The square of `statistics.pstdev`. -/
def variance (xs : List ℚ) : ℚ := mean (xs.map fun x => (x - mean xs) * (x - mean xs))

def percent (x : ℚ) : Text := fixedText 2 (x * 100) ++ text "%"

def dropReason (symbol : Text) (prev last drop threshold : ℚ) : Text :=
  symbol ++ text " dropped " ++ percent drop ++ text " on last tick (" ++ fixedText 2 prev ++
    text " → " ++ fixedText 2 last ++ text "), threshold " ++ percent threshold

def cvReason (symbol : Text) (cvSquared : ℚ) (count : Nat) (threshold : ℚ) : Text :=
  symbol ++ text " window CV " ++ fixedSqrtText 2 (cvSquared * 10000) ++ text "% over last " ++
    natText count ++ text " ticks, threshold " ++ percent threshold

def check (g : VolatilityCircuitBreaker) (signal : TradeSignal) (context : GuardContext) :
    Except Exn GuardDecision :=
  let prices := (context.recentPrices.lookup signal.symbol).getD []
  if prices.length < 4 then .ok .allow
  else
    let window := (prices.drop (prices.length - g.windowSize)).map Decimal.toRat
    let prev := window.getD (window.length - 2) 0
    let last := window.getD (window.length - 1) 0
    let drop := (prev - last) / prev
    if 0 < prev ∧ g.maxDropPct < drop then
      GuardDecision.block (dropReason signal.symbol prev last drop g.maxDropPct)
    else
      let m := mean window
      let cvSquared := variance window / (m * m)
      if 0 < m ∧ g.maxCvPct * g.maxCvPct < cvSquared then
        GuardDecision.block (cvReason signal.symbol cvSquared window.length g.maxCvPct)
      else .ok .allow

def toGuard {W : Type*} (g : VolatilityCircuitBreaker) : OrderGuardrail W :=
  ⟨text "volatility_circuit_breaker", fun _ => g.check⟩

end VolatilityCircuitBreaker

/-! ### The pipeline of guards -/

structure GuardrailPipeline (W : Type*) where
  guards : List (OrderGuardrail W)

namespace GuardrailPipeline

variable {W : Type*}

def register (p : GuardrailPipeline W) (guard : OrderGuardrail W) : GuardrailPipeline W :=
  ⟨p.guards ++ [guard]⟩

def allow (signal : TradeSignal) : GuardedSignal := { signal := signal, allowed := true }

def block (signal : TradeSignal) (guardId reason : Text) : GuardedSignal :=
  { signal := signal, allowed := false, blockedBy := some guardId, reason := some reason }

theorem block_effective (signal : TradeSignal) (guardId reason : Text) :
    (block signal guardId reason).effectiveSignal = { signal with action := .hold } := rfl

/-- The loop over the guards: the first that blocks ends it, and so does one that raises. -/
def runGuards (w : W) (signal : TradeSignal) (context : GuardContext) :
    List (OrderGuardrail W) → Except Exn GuardedSignal
  | [] => .ok (allow signal)
  | guard :: guards =>
      match guard.check w signal context with
      | .error e => .error e
      | .ok decision =>
          if !decision.allowed then .ok (block signal guard.guardId decision.reason)
          else runGuards w signal context guards

def evaluate (p : GuardrailPipeline W) (w : W) (signal : TradeSignal) (context : GuardContext) :
    Except Exn GuardedSignal :=
  if signal.action = .hold then .ok (allow signal)
  else runGuards w signal context p.guards

/-- The guard returns normally and lets the signal pass. -/
def Allows (w : W) (signal : TradeSignal) (context : GuardContext) (guard : OrderGuardrail W) :
    Prop :=
  ∃ decision, guard.check w signal context = .ok decision ∧ decision.allowed = true

/-- The loop allows a signal exactly when every guard does. -/
theorem runGuards_allowed_iff (w : W) (signal : TradeSignal) (context : GuardContext)
    (guards : List (OrderGuardrail W)) :
    (∃ g, runGuards w signal context guards = .ok g ∧ g.allowed = true) ↔
      ∀ guard ∈ guards, Allows w signal context guard := by
  induction guards with
  | nil => simp [runGuards, allow]
  | cons guard guards ih =>
      rw [List.forall_mem_cons, ← ih]
      simp only [runGuards, Allows]
      cases hcheck : guard.check w signal context with
      | error e => simp
      | ok decision =>
          cases hallowed : decision.allowed with
          | true => simp [hallowed]
          | false => simp [block, hallowed]

theorem runGuards_signal {w : W} {signal : TradeSignal} {context : GuardContext}
    {guards : List (OrderGuardrail W)} {g : GuardedSignal}
    (h : runGuards w signal context guards = .ok g) : g.signal = signal := by
  induction guards with
  | nil =>
      cases h
      rfl
  | cons guard guards ih =>
      simp only [runGuards] at h
      split at h
      · cases h
      · split at h
        · cases h
          rfl
        · exact ih h

theorem evaluate_signal {p : GuardrailPipeline W} {w : W} {signal : TradeSignal}
    {context : GuardContext} {g : GuardedSignal} (h : p.evaluate w signal context = .ok g) :
    g.signal = signal := by
  simp only [evaluate] at h
  split at h
  · cases h
    rfl
  · exact runGuards_signal h

/-- A signal that is no HOLD stays so only if every guard lets it pass. -/
theorem evaluate_effective_ne_hold_iff (p : GuardrailPipeline W) (w : W) (signal : TradeSignal)
    (context : GuardContext) :
    (∃ g, p.evaluate w signal context = .ok g ∧ g.effectiveSignal.action ≠ .hold) ↔
      signal.action ≠ .hold ∧ ∀ guard ∈ p.guards, Allows w signal context guard := by
  rw [← runGuards_allowed_iff]
  simp only [evaluate]
  by_cases hold : signal.action = .hold
  · simp [hold, allow, GuardedSignal.effectiveSignal]
  · simp only [ne_eq, hold, not_false_eq_true, true_and]
    constructor
    · rintro ⟨g, hg, hne⟩
      refine ⟨g, hg, ?_⟩
      cases ha : g.allowed with
      | true => rfl
      | false => simp [GuardedSignal.effectiveSignal, ha] at hne
    · rintro ⟨g, hg, ha⟩
      refine ⟨g, hg, ?_⟩
      simpa only [GuardedSignal.effectiveSignal, ha, if_true, runGuards_signal hg] using hold

theorem evaluate_effective {p : GuardrailPipeline W} {w : W} {signal : TradeSignal}
    {context : GuardContext} {g : GuardedSignal} (h : p.evaluate w signal context = .ok g)
    (hne : g.effectiveSignal.action ≠ .hold) : g.effectiveSignal = signal := by
  have hs := evaluate_signal h
  cases ha : g.allowed with
  | true => simp only [GuardedSignal.effectiveSignal, ha, if_true, hs]
  | false => simp [GuardedSignal.effectiveSignal, ha] at hne

end GuardrailPipeline
end NexusBackend
