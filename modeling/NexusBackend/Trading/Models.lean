import NexusBackend.Market.Models
import Mathlib.Algebra.Order.Ring.Rat

/-!
Agent votes and the coordinator's decision. Confidence and score are exact
rationals; their bounds are the constraints of the model fields.
-/
namespace NexusBackend

open Python

inductive Action
  | buy
  | hold
  | sell
deriving DecidableEq

namespace Action

def value : Action → Text
  | buy => text "buy"
  | hold => text "hold"
  | sell => text "sell"

end Action

/-- `_action_score`. -/
def actionScore : Action → ℚ
  | .buy => 1
  | .hold => 0
  | .sell => -1

theorem zero_confidence : 0 ≤ (0 : ℚ) ∧ (0 : ℚ) ≤ 1 := by decide

theorem one_confidence : 0 ≤ (1 : ℚ) ∧ (1 : ℚ) ≤ 1 := by decide

structure AgentSignal where
  agentId : Text
  symbol : Text
  action : Action
  confidence : ℚ
  rationale : Text := []
  ts : DateTime
  confidence_range : 0 ≤ confidence ∧ confidence ≤ 1
deriving DecidableEq

structure TradeSignal where
  symbol : Text
  action : Action
  confidence : ℚ
  score : ℚ
  contributors : List AgentSignal
  ts : UtcTime
  confidence_range : 0 ≤ confidence ∧ confidence ≤ 1
  score_range : -1 ≤ score ∧ score ≤ 1
deriving DecidableEq

/-- The decision where no agent answered: HOLD with confidence zero. -/
def TradeSignal.holdDefault (symbol : Text) (contributors : List AgentSignal) (now : UtcTime) :
    TradeSignal where
  symbol := symbol
  action := .hold
  confidence := 0
  score := 0
  contributors := contributors
  ts := now
  confidence_range := by decide
  score_range := by decide

end NexusBackend
