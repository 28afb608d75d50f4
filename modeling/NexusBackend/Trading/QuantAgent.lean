import NexusBackend.Library.Changes
import NexusBackend.Trading.Context
import NexusBackend.Trading.Models

/-!
`QuantAgent`: the relative strength index over the last prices of a symbol, and the vote that it
leads to. Prices and bounds are exact; dividing by zero raises.
-/
namespace NexusBackend

open Python Changes

def zeroDivisionError : ExnKind := .named (text "ZeroDivisionError")

/-- `a / b`. -/
def divide (a b : ℚ) : Except Exn ℚ := if b = 0 then raise zeroDivisionError else .ok (a / b)

theorem divide_ok {a b : ℚ} (h : b ≠ 0) : divide a b = .ok (a / b) := if_neg h

structure QuantAgent where
  period : Nat
  oversold : ℚ
  overbought : ℚ
  agentId : Text
  period_ge : 2 ≤ period
  bounds : 0 < oversold ∧ oversold < overbought ∧ overbought < 100

namespace QuantAgent

def make (period : Int) (oversold overbought : ℚ) (agentId : Text) : Except Exn QuantAgent :=
  if hperiod : 2 ≤ period then
    if hbounds : 0 < oversold ∧ oversold < overbought ∧ overbought < 100 then
      .ok ⟨period.toNat, oversold, overbought, agentId, Int.lt_toNat.mpr hperiod, hbounds⟩
    else raise .valueError
  else raise .valueError (text "period must be >= 2, got " ++ intText period)

/-- One turn of the loop: a change goes to the gains or to the losses. -/
def tally (acc : ℚ × ℚ) (pair : ℚ × ℚ) : ℚ × ℚ :=
  let change := pair.2 - pair.1
  if 0 < change then (acc.1 + change, acc.2) else (acc.1, acc.2 + -change)

/-- `_compute_rsi`. -/
def computeRsi (prices : List ℚ) (period : Nat) : Except Exn ℚ := do
  let window := prices.rtake (period + 1)
  let totals := (window.zip window.tail).foldl tally (0, 0)
  let avgGain ← divide totals.1 period
  let avgLoss ← divide totals.2 period
  if avgGain = 0 ∧ avgLoss = 0 then return 50
  else if avgLoss = 0 then return 100
  else if avgGain = 0 then return 0
  else
    let rs ← divide avgGain avgLoss
    let rest ← divide 100 (1 + rs)
    return 100 - rest

/-- `_clip`. -/
def clip (x : ℚ) : ℚ := max 0 (min 1 x)

theorem clip_range (x : ℚ) : 0 ≤ clip x ∧ clip x ≤ 1 :=
  ⟨le_max_left _ _, max_le zero_le_one (min_le_left _ _)⟩

theorem clip_of_range {x : ℚ} (h : 0 ≤ x ∧ x ≤ 1) : clip x = x := by
  rw [clip, min_eq_right h.2, max_eq_right h.1]

variable (agent : QuantAgent)

/-- `_signal`, of a confidence that the model accepts. -/
def signal (symbol : Text) (action : Action) (confidence : ℚ)
    (range : 0 ≤ confidence ∧ confidence ≤ 1) (rationale : Text) (now : UtcTime) :
    AgentSignal where
  agentId := agent.agentId
  symbol := symbol
  action := action
  confidence := confidence
  rationale := rationale
  ts := now.toDateTime
  confidence_range := range

/-- `_hold`. -/
def hold (symbol rationale : Text) (now : UtcTime) : AgentSignal :=
  agent.signal symbol .hold 0 zero_confidence rationale now

def rsiText (rsi : ℚ) : Text :=
  text "RSI(" ++ natText agent.period ++ text ")=" ++ fixedText 2 rsi

/-- `evaluate`, from the index on. -/
def vote (symbol : Text) (rsi : ℚ) (now : UtcTime) : Except Exn AgentSignal :=
  if rsi ≤ agent.oversold then do
    let confidence ← divide (agent.oversold - rsi) agent.oversold
    return agent.signal symbol .buy (clip confidence) (clip_range confidence)
      (agent.rsiText rsi ++ text " ≤ " ++ fixedText 0 agent.oversold ++ text " (oversold)") now
  else if agent.overbought ≤ rsi then do
    let confidence ← divide (rsi - agent.overbought) (100 - agent.overbought)
    return agent.signal symbol .sell (clip confidence) (clip_range confidence)
      (agent.rsiText rsi ++ text " ≥ " ++ fixedText 0 agent.overbought ++
        text " (overbought)") now
  else return agent.hold symbol (agent.rsiText rsi ++ text " in neutral zone") now

def evaluate (context : TickContext) (symbol : Text) (now : UtcTime) : Except Exn AgentSignal :=
  let prices := context.recentPrices symbol none
  if prices.length < agent.period + 1 then
    .ok (agent.hold symbol
      (text "insufficient history (" ++ natText prices.length ++ text " < " ++
        natText (agent.period + 1) ++ text ")") now)
  else do
    let rsi ← computeRsi (prices.map Decimal.toRat) agent.period
    agent.vote symbol rsi now

/-! ### The index -/

/-- The changes that the index is about. -/
def lastChanges (prices : List ℚ) (period : Nat) : List ℚ := (changes prices).rtake period

/-- The share of the gains in percent. -/
def rsiOf (prices : List ℚ) (period : Nat) : ℚ :=
  100 * share (gains (lastChanges prices period)) (losses (lastChanges prices period))

theorem foldl_tally (pairs : List (ℚ × ℚ)) (acc : ℚ × ℚ) :
    pairs.foldl tally acc = (acc.1 + gains (pairs.map fun p => p.2 - p.1),
      acc.2 + losses (pairs.map fun p => p.2 - p.1)) := by
  induction pairs generalizing acc with
  | nil => simp [gains, losses]
  | cons pair pairs ih =>
      rw [List.foldl_cons, ih]
      simp only [tally, gains, losses, List.map_cons, List.sum_cons]
      split
      · rename_i hup
        rw [max_eq_right hup.le, max_eq_left (neg_nonpos.mpr hup.le), zero_add, add_assoc]
      · rename_i hdown
        rw [max_eq_left (not_lt.mp hdown), max_eq_right (neg_nonneg.mpr (not_lt.mp hdown)),
          zero_add, add_assoc]

/-- What the loop adds up. -/
theorem totals_eq (prices : List ℚ) (period : Nat) :
    ((prices.rtake (period + 1)).zip (prices.rtake (period + 1)).tail).foldl tally (0, 0) =
      (gains (lastChanges prices period), losses (lastChanges prices period)) := by
  rw [foldl_tally, zero_add, zero_add, lastChanges, ← changes_rtake, changes, List.zip,
    List.map_zipWith]

/-- Where nothing is divided by zero, the branches are one formula. -/
theorem computeRsi_eq (prices : List ℚ) {period : Nat} (hperiod : 0 < period) :
    computeRsi prices period = .ok (rsiOf prices period) := by
  have hg := gains_nonneg (lastChanges prices period)
  have hl := losses_nonneg (lastChanges prices period)
  have hp : (period : ℚ) ≠ 0 := Nat.cast_ne_zero.mpr hperiod.ne'
  rw [computeRsi, totals_eq, rsiOf, share]
  generalize gains (lastChanges prices period) = g at *
  generalize losses (lastChanges prices period) = l at *
  rw [divide_ok hp, ok_bind, divide_ok hp, ok_bind]
  simp only [div_eq_zero_iff, hp, or_false]
  split
  · rename_i hboth
    rw [hboth.1, hboth.2, add_zero, if_pos rfl]
    norm_num
    rfl
  · rename_i hsome
    have hsum : g + l ≠ 0 := by
      intro hzero
      exact hsome ⟨by linarith, by linarith⟩
    rw [if_neg hsum]
    split
    · rename_i hloss
      rw [hloss, add_zero] at hsum ⊢
      rw [div_self hsum, mul_one]
      rfl
    · rename_i hloss
      split
      · rename_i hgain
        rw [hgain, zero_div, mul_zero]
        rfl
      · rename_i hgain
        have hone : 1 + g / period / (l / period) ≠ 0 := by
          have hnonneg : 0 ≤ g / period / (l / period) := by positivity
          linarith
        rw [divide_ok (div_ne_zero hloss hp), ok_bind, divide_ok hone, ok_bind]
        congr 1
        field_simp
        ring

theorem rsiOf_range (prices : List ℚ) (period : Nat) :
    0 ≤ rsiOf prices period ∧ rsiOf prices period ≤ 100 := by
  obtain ⟨h0, h1⟩ := share_range (gains_nonneg (lastChanges prices period))
    (losses_nonneg (lastChanges prices period))
  rw [rsiOf]
  exact ⟨by linarith, by linarith⟩

/-- What the index of enough prices is, and what it depends on. -/
structure RsiLaw (prices : List ℚ) (period : Nat) : Prop where
  formula : let g := gains (lastChanges prices period)
    let l := losses (lastChanges prices period)
    computeRsi prices period = .ok (if g = 0 ∧ l = 0 then 50 else 100 * g / (g + l))
  range : ∃ rsi, computeRsi prices period = .ok rsi ∧ 0 ≤ rsi ∧ rsi ≤ 100
  window : ∀ other : List ℚ, other.rtake (period + 1) = prices.rtake (period + 1) →
    computeRsi other period = computeRsi prices period
  shift : ∀ a, computeRsi (prices.map (· + a)) period = computeRsi prices period
  scale : ∀ k, 0 < k → computeRsi (prices.map (k * ·)) period = computeRsi prices period
  negate : ∀ other rsi, lastChanges other period = (lastChanges prices period).map Neg.neg →
    computeRsi prices period = .ok rsi → computeRsi other period = .ok (100 - rsi)

theorem computeRsi_law {period : Nat} (hperiod : 0 < period) (prices : List ℚ) :
    RsiLaw prices period where
  formula := by
    have hg := gains_nonneg (lastChanges prices period)
    have hl := losses_nonneg (lastChanges prices period)
    dsimp only
    rw [computeRsi_eq prices hperiod, rsiOf, share]
    simp only [add_eq_zero_iff_of_nonneg hg hl]
    split
    · norm_num
    · rw [mul_div_assoc]
  range := ⟨_, computeRsi_eq prices hperiod, rsiOf_range prices period⟩
  window other h := by
    rw [computeRsi, computeRsi, h]
  shift a := by
    rw [computeRsi_eq _ hperiod, computeRsi_eq _ hperiod, rsiOf, lastChanges, changes_add]
    rfl
  scale k hk := by
    rw [computeRsi_eq _ hperiod, computeRsi_eq _ hperiod, rsiOf, lastChanges, changes_mul,
      rtake_map, gains_mul hk.le, losses_mul hk.le, share_mul hk]
    rfl
  negate other rsi h hrsi := by
    rw [computeRsi_eq _ hperiod] at hrsi ⊢
    obtain rfl := Except.ok.inj hrsi
    rw [rsiOf, h, gains_neg, losses_neg, share_swap, rsiOf]
    congr 1
    ring

/-! ### The vote -/

/-- What a vote says about the index: which side of the bounds it is on, and how far. -/
structure Decides (rsi : ℚ) (signal : AgentSignal) : Prop where
  buy_iff : signal.action = .buy ↔ rsi ≤ agent.oversold
  sell_iff : signal.action = .sell ↔ agent.overbought ≤ rsi
  exclusive : ¬ (rsi ≤ agent.oversold ∧ agent.overbought ≤ rsi)
  buy_confidence : rsi ≤ agent.oversold →
    signal.confidence = (agent.oversold - rsi) / agent.oversold
  sell_confidence : agent.overbought ≤ rsi →
    signal.confidence = (rsi - agent.overbought) / (100 - agent.overbought)

theorem below_range {rsi : ℚ} (h0 : 0 ≤ rsi) (h : rsi ≤ agent.oversold) :
    0 ≤ (agent.oversold - rsi) / agent.oversold ∧
      (agent.oversold - rsi) / agent.oversold ≤ 1 := by
  have hpos := agent.bounds.1
  exact ⟨div_nonneg (by linarith) hpos.le, (div_le_one hpos).mpr (by linarith)⟩

theorem above_range {rsi : ℚ} (h1 : rsi ≤ 100) (h : agent.overbought ≤ rsi) :
    0 ≤ (rsi - agent.overbought) / (100 - agent.overbought) ∧
      (rsi - agent.overbought) / (100 - agent.overbought) ≤ 1 := by
  have hpos : 0 < 100 - agent.overbought := by linarith [agent.bounds.2.2]
  exact ⟨div_nonneg (by linarith) hpos.le, (div_le_one hpos).mpr (by linarith)⟩

theorem vote_decides (symbol : Text) {rsi : ℚ} (h0 : 0 ≤ rsi) (h1 : rsi ≤ 100) (now : UtcTime) :
    ∃ signal, agent.vote symbol rsi now = .ok signal ∧ agent.Decides rsi signal := by
  obtain ⟨hlow, horder, hhigh⟩ := agent.bounds
  have hdisjoint : ¬ (rsi ≤ agent.oversold ∧ agent.overbought ≤ rsi) := by
    rintro ⟨hle, hge⟩
    linarith
  rw [vote]
  split
  · rename_i hbuy
    have hsell : ¬ agent.overbought ≤ rsi := fun h => hdisjoint ⟨hbuy, h⟩
    rw [divide_ok hlow.ne']
    refine ⟨_, rfl, iff_of_true rfl hbuy, iff_of_false nofun hsell, hdisjoint, ?_, ?_⟩
    · exact fun _ => clip_of_range (agent.below_range h0 hbuy)
    · exact fun h => absurd h hsell
  · rename_i hbuy
    split
    · rename_i hsell
      rw [divide_ok (by linarith)]
      refine ⟨_, rfl, iff_of_false nofun hbuy, iff_of_true rfl hsell, hdisjoint, ?_, ?_⟩
      · exact fun h => absurd h hbuy
      · exact fun _ => clip_of_range (agent.above_range h1 hsell)
    · rename_i hsell
      exact ⟨_, rfl, iff_of_false nofun hbuy, iff_of_false nofun hsell, hdisjoint,
        fun h => absurd h hbuy, fun h => absurd h hsell⟩

/-- Where there are enough prices, the agent votes on their index. -/
theorem evaluate_decides (context : TickContext) (symbol : Text) (now : UtcTime)
    (h : agent.period + 1 ≤ (context.recentPrices symbol none).length) :
    ∃ rsi signal,
      computeRsi ((context.recentPrices symbol none).map Decimal.toRat) agent.period = .ok rsi ∧
        agent.evaluate context symbol now = .ok signal ∧ agent.Decides rsi signal := by
  have hperiod : 0 < agent.period := Nat.lt_of_lt_of_le Nat.zero_lt_two agent.period_ge
  have hrsi := computeRsi_eq ((context.recentPrices symbol none).map Decimal.toRat) hperiod
  obtain ⟨h0, h1⟩ :=
    rsiOf_range ((context.recentPrices symbol none).map Decimal.toRat) agent.period
  obtain ⟨signal, hvote, hdecides⟩ := agent.vote_decides symbol h0 h1 now
  refine ⟨_, signal, hrsi, ?_, hdecides⟩
  simp only [evaluate]
  rw [if_neg (not_lt.mpr h), hrsi, ok_bind, hvote]

theorem Decides.buy_mono {agent : QuantAgent} {rsi rsi' : ℚ} {signal signal' : AgentSignal}
    (h : agent.Decides rsi signal) (h' : agent.Decides rsi' signal') (hle : rsi' ≤ rsi)
    (hbuy : rsi ≤ agent.oversold) : signal.confidence ≤ signal'.confidence := by
  rw [h.buy_confidence hbuy, h'.buy_confidence (hle.trans hbuy)]
  exact div_le_div_of_nonneg_right (by linarith) agent.bounds.1.le

theorem Decides.sell_mono {agent : QuantAgent} {rsi rsi' : ℚ} {signal signal' : AgentSignal}
    (h : agent.Decides rsi signal) (h' : agent.Decides rsi' signal') (hle : rsi ≤ rsi')
    (hsell : agent.overbought ≤ rsi) : signal.confidence ≤ signal'.confidence := by
  rw [h.sell_confidence hsell, h'.sell_confidence (hsell.trans hle)]
  exact div_le_div_of_nonneg_right (by linarith) (by linarith [agent.bounds.2.2])

/-- The index follows one formula with its symmetries, the votes for buying and selling exclude
each other, and their confidence is what the formula gives, larger the further the index is past
its bound. -/
theorem quantAgent_law :
    (∀ period prices, 0 < period → period + 1 ≤ prices.length → RsiLaw prices period) ∧
      (∀ context symbol now, agent.period + 1 ≤ (context.recentPrices symbol none).length →
        ∃ rsi signal,
          computeRsi ((context.recentPrices symbol none).map Decimal.toRat) agent.period =
              .ok rsi ∧
            agent.evaluate context symbol now = .ok signal ∧ agent.Decides rsi signal) ∧
      ∀ rsi rsi' signal signal', agent.Decides rsi signal → agent.Decides rsi' signal' →
        (rsi' ≤ rsi → rsi ≤ agent.oversold → signal.confidence ≤ signal'.confidence) ∧
          (rsi ≤ rsi' → agent.overbought ≤ rsi → signal.confidence ≤ signal'.confidence) :=
  ⟨fun _ prices hperiod _ => computeRsi_law hperiod prices, agent.evaluate_decides,
    fun _ _ _ _ h h' => ⟨h.buy_mono h', h.sell_mono h'⟩⟩

end QuantAgent
end NexusBackend
