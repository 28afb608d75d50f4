import NexusBackend.Trading.Models
import Mathlib.Algebra.BigOperators.Group.List.Basic

/-!
Weighted consensus of the agents. An agent is any function of what it can
observe, `W`; it may raise, and it may answer for another symbol. Weights and
threshold are finite and the sums are exact.
-/
namespace NexusBackend

open Python

structure Agent (W : Type*) where
  agentId : Text
  evaluate : W → Text → Except Exn AgentSignal

structure TradingCoordinator (W : Type*) where
  threshold : ℚ
  agents : List (Agent W × ℚ)
  threshold_range : 0 ≤ threshold ∧ threshold ≤ 1
  weights_nonneg : ∀ a ∈ agents, 0 ≤ a.2

namespace TradingCoordinator

variable {W : Type*}

def make (threshold : ℚ) : Except Exn (TradingCoordinator W) :=
  if h : 0 ≤ threshold ∧ threshold ≤ 1 then .ok ⟨threshold, [], h, by simp⟩
  else raise .valueError

def register (c : TradingCoordinator W) (agent : Agent W) (weight : ℚ) :
    Except Exn (TradingCoordinator W) :=
  if h : 0 ≤ weight then
    .ok { c with
      agents := c.agents ++ [(agent, weight)]
      weights_nonneg := by
        intro a ha
        rcases List.mem_append.mp ha with ha | ha
        · exact c.weights_nonneg a ha
        · rw [List.mem_singleton.mp ha]
          exact h }
  else raise .valueError

/-- `max(-1.0, min(1.0, x))`. -/
def clampScore (x : ℚ) : ℚ := max (-1) (min 1 x)

theorem clampScore_range (x : ℚ) : -1 ≤ clampScore x ∧ clampScore x ≤ 1 :=
  ⟨le_max_left _ _, max_le (by decide) (min_le_left _ _)⟩

def rawScore (votes : List (AgentSignal × ℚ)) : ℚ :=
  (votes.map fun v => actionScore v.1.action * v.2 * v.1.confidence).sum

/-- `_aggregate`, over the surviving votes with their weights. -/
def aggregate (threshold : ℚ) (symbol : Text) (votes : List (AgentSignal × ℚ)) (now : UtcTime) :
    TradeSignal :=
  let totalWeight := (votes.map Prod.snd).sum
  if totalWeight ≤ 0 then .holdDefault symbol (votes.map Prod.fst) now
  else
    let score := clampScore (rawScore votes / totalWeight)
    { symbol := symbol
      action := if threshold ≤ score then .buy else if score ≤ -threshold then .sell else .hold
      confidence := |score|
      score := score
      contributors := votes.map Prod.fst
      ts := now
      confidence_range := ⟨abs_nonneg _, abs_le.mpr (clampScore_range _)⟩
      score_range := clampScore_range _ }

/-- The votes that count: no exception, and about the symbol that was asked. -/
def survivors (c : TradingCoordinator W) (w : W) (symbol : Text) : List (AgentSignal × ℚ) :=
  c.agents.filterMap fun (agent, weight) =>
    match agent.evaluate w symbol with
    | .error _ => none
    | .ok signal => if signal.symbol ≠ symbol then none else some (signal, weight)

def evaluate (c : TradingCoordinator W) (w : W) (symbol : Text) (now : UtcTime) : TradeSignal :=
  if c.agents = [] then .holdDefault symbol [] now
  else aggregate c.threshold symbol (c.survivors w symbol) now

theorem aggregate_symbol (threshold : ℚ) (symbol : Text) (votes : List (AgentSignal × ℚ))
    (now : UtcTime) : (aggregate threshold symbol votes now).symbol = symbol := by
  rw [aggregate]
  dsimp only
  split <;> rfl

@[simp] theorem evaluate_symbol (c : TradingCoordinator W) (w : W) (symbol : Text)
    (now : UtcTime) : (c.evaluate w symbol now).symbol = symbol := by
  simp only [evaluate]
  split
  · rfl
  · exact aggregate_symbol _ _ _ _

end TradingCoordinator
end NexusBackend
