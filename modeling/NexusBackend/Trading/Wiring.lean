import NexusBackend.Trading.Pipeline
import Mathlib.Tactic.NormNum

/-!
The trading stack as the application wires it: the three guards, the sizer that
the settings choose and the order client that stands in for a broker. The agents
and the audit publisher stay parameters.
-/
namespace NexusBackend

open Python

variable {W : Type*}

inductive PositionSizerKind
  | fixed
  | linear
deriving DecidableEq

/-- The settings that the trading stack reads. -/
structure TradingSettings where
  allowLiveOrders : Bool := false
  defaultOrderQuantity : Int := 1
  positionSizer : PositionSizerKind := .fixed
  minOrderQuantity : Int := 1
  maxOrderQuantity : Int := 10
  minOrderConfidence : ℚ := 0

/-- `_build_sizer`. -/
def buildSizer (settings : TradingSettings) : Except Exn (PositionSizer W) :=
  if settings.positionSizer = .linear then
    (ConfidenceLinearSizer.make settings.minOrderQuantity settings.maxOrderQuantity
      settings.minOrderConfidence).map (·.toSizer)
  else (FixedSizer.make settings.defaultOrderQuantity).map (·.toSizer)

/-- `_NoopOrderClient`. -/
def noopOrderClient : OrderClient W where
  placeOrder _ _ := .ok
    { success := false
      message := text
        "no broker wired (Sprint 5h placeholder; flip ALLOW_LIVE_ORDERS only after Sprint 5i)" }

def mainMaxPosition : MaxPositionSizeGuard := ⟨1000, by decide⟩

def mainCoolDown : CoolDownGuard := ⟨60, by decide⟩

def mainBreaker : VolatilityCircuitBreaker :=
  ⟨5 / 100, 3 / 100, 10, by norm_num, by decide⟩

/-- The guards in the order of their registration. -/
def mainGuards : GuardrailPipeline W :=
  ⟨[mainMaxPosition.toGuard, mainCoolDown.toGuard, mainBreaker.toGuard]⟩

/-- The executor with the client, the switch and the sizer of the settings. -/
def buildExecutor (settings : TradingSettings) : Except Exn (OrderExecutor W) := do
  let sizer ← buildSizer settings
  OrderExecutor.make noopOrderClient settings.allowLiveOrders settings.defaultOrderQuantity
    (some sizer)

/-- The pipeline of the application around its agents. -/
def buildPipeline (settings : TradingSettings) (coordinator : TradingCoordinator W)
    (auditPublisher : W → AuditEnvelope → Except Exn Unit) :
    Except Exn (TradingPipeline W) := do
  let executor ← buildExecutor settings
  return { coordinator := coordinator, guardrails := mainGuards, executor := executor,
           auditPublisher := some auditPublisher }

/-- Whatever sizer the settings choose, the executor keeps their switch. -/
theorem buildExecutor_live {settings : TradingSettings} {ex : OrderExecutor W}
    (h : buildExecutor settings = .ok ex) :
    ex.allowLiveOrders = settings.allowLiveOrders ∧ ex.orderClient = noopOrderClient := by
  simp only [buildExecutor] at h
  cases hs : buildSizer (W := W) settings with
  | error e =>
      rw [hs] at h
      cases h
  | ok sizer =>
      rw [hs] at h
      cases h
      exact ⟨rfl, rfl⟩

/-! ### A small instance -/

/-- One agent that always votes for the same action with full confidence. -/
def steadyAgent (action : Action) : Agent W where
  agentId := text "steady"
  evaluate _ symbol := .ok
    { agentId := text "steady", symbol := symbol, action := action, confidence := 1,
      ts := ⟨sampleDate, .midnight, none⟩, confidence_range := one_confidence }

def steadyCoordinator (action : Action) : TradingCoordinator W where
  threshold := 3 / 10
  agents := [(steadyAgent action, 1)]
  threshold_range := by norm_num
  weights_nonneg := by simp

/-- A broker that accepts every order. -/
def acceptingClient : OrderClient W where
  placeOrder _ _ := .ok { success := true, orderId := some (text "1") }

/-- The wired guards and size with live orders on, an accepting broker and a steady agent. -/
def steadyPipeline (action : Action) : TradingPipeline Unit where
  coordinator := steadyCoordinator action
  guardrails := mainGuards
  executor := ⟨acceptingClient, true, (⟨1, by decide⟩ : FixedSizer).toSizer⟩

def sampleTime (minute : Fin 60) : UtcTime :=
  ⟨sampleDate, ⟨1, minute, 0, 0, by omega⟩⟩

def openingMinute : Fin 60 := 0

def sampleTick : Tick where
  symbol := text "005930"
  ts := (sampleTime 0).toDateTime
  price := .finite false 70000 0
  volume := 10
  side := .buy
  price_finite := rfl

def sampleInput (minute : Fin 60) : TickInput Unit :=
  ⟨sampleTick, (), sampleTime minute, sampleTime minute, sampleTime minute⟩

def emptyContext : TickContext := ⟨256, ∅, by decide⟩

end NexusBackend
