import NexusBackend.Library.WeightedMean
import NexusBackend.Trading.Coordinator

/-!
What the coordinator's decision depends on: the votes of the agents that answered, as a
weighted mean, and neither their order nor the agents that failed. A vote that is raised
never moves the decision down, and a decision has a vote behind it but at the threshold zero.
Sums are exact.
-/
namespace NexusBackend

open Python

/-! ### Failing agents among others -/

/-- The second list is the first with failing elements put in, anywhere. -/
inductive Padded {α : Type*} (Fails : α → Prop) : List α → List α → Prop
  | nil : Padded Fails [] []
  | keep {x : α} {xs ys : List α} : Padded Fails xs ys → Padded Fails (x :: xs) (x :: ys)
  | insert {y : α} {xs ys : List α} : Fails y → Padded Fails xs ys → Padded Fails xs (y :: ys)

theorem Padded.filterMap_eq {α β : Type*} {Fails : α → Prop} {f : α → Option β}
    (hf : ∀ x, Fails x → f x = none) {xs ys : List α} (h : Padded Fails xs ys) :
    ys.filterMap f = xs.filterMap f := by
  induction h with
  | nil => rfl
  | keep _ ih => simp only [List.filterMap_cons, ih]
  | insert hy _ ih => rw [List.filterMap_cons_none (hf _ hy), ih]

namespace TradingCoordinator

variable {W : Type*}

/-- The score before it is clamped. -/
def meanScore (votes : List (AgentSignal × ℚ)) : ℚ := rawScore votes / (votes.map Prod.snd).sum

def actionFor (threshold score : ℚ) : Action :=
  if threshold ≤ score then .buy else if score ≤ -threshold then .sell else .hold

/-- The agent raises, or answers for another symbol. -/
def Fails (w : W) (symbol : Text) (agent : Agent W × ℚ) : Prop :=
  ∀ signal, agent.1.evaluate w symbol = .ok signal → signal.symbol ≠ symbol

def SameDecision (a b : TradeSignal) : Prop :=
  a.score = b.score ∧ a.action = b.action ∧ a.confidence = b.confidence

theorem abs_vote_le_one (v : AgentSignal × ℚ) : |actionScore v.1.action * v.1.confidence| ≤ 1 := by
  have hconf := v.1.confidence_range
  have hscore : |actionScore v.1.action| ≤ 1 := by cases v.1.action <;> decide
  rw [abs_mul, abs_of_nonneg hconf.1]
  exact mul_le_one₀ hscore hconf.1 hconf.2

theorem meanScore_eq (votes : List (AgentSignal × ℚ)) :
    meanScore votes = WeightedMean.mean Prod.snd
      (fun v => actionScore v.1.action * v.1.confidence) votes := by
  have hraw : rawScore votes = WeightedMean.weighted Prod.snd
      (fun v => actionScore v.1.action * v.1.confidence) votes := by
    simp only [rawScore, WeightedMean.weighted]
    congr 1
    apply List.map_congr_left
    intro v _
    rw [mul_comm (actionScore v.1.action), mul_assoc]
  rw [meanScore, hraw]
  rfl

theorem survivors_nonneg (c : TradingCoordinator W) (w : W) (symbol : Text) :
    ∀ v ∈ c.survivors w symbol, 0 ≤ v.2 := by
  intro v hv
  obtain ⟨⟨agent, weight⟩, hmem, hvote⟩ := List.mem_filterMap.mp hv
  have hnonneg := c.weights_nonneg _ hmem
  dsimp only at hvote
  split at hvote
  · cases hvote
  · split at hvote <;> cases hvote
    exact hnonneg

theorem meanScore_range {votes : List (AgentSignal × ℚ)} (hw : ∀ v ∈ votes, 0 ≤ v.2) :
    -1 ≤ meanScore votes ∧ meanScore votes ≤ 1 := by
  rw [meanScore_eq]
  exact abs_le.mp (WeightedMean.abs_mean_le_one hw fun v _ => abs_vote_le_one v)

theorem clampScore_of_range {x : ℚ} (h : -1 ≤ x ∧ x ≤ 1) : clampScore x = x := by
  rw [clampScore, min_eq_right h.2, max_eq_right h.1]

/-- `evaluate` over the surviving votes: without weight, no decision; else the mean. -/
theorem evaluate_eq (c : TradingCoordinator W) (w : W) (symbol : Text) (now : UtcTime) :
    c.evaluate w symbol now = aggregate c.threshold symbol (c.survivors w symbol) now := by
  rw [evaluate]
  split
  · rename_i hnil
    simp [survivors, hnil, aggregate]
  · rfl

theorem aggregate_score {votes : List (AgentSignal × ℚ)} (hw : ∀ v ∈ votes, 0 ≤ v.2)
    (threshold : ℚ) (symbol : Text) (now : UtcTime) :
    (aggregate threshold symbol votes now).score = meanScore votes := by
  rw [aggregate]
  split
  · rename_i hzero
    have hsum : (votes.map Prod.snd).sum = 0 := le_antisymm hzero (WeightedMean.total_nonneg hw)
    rw [meanScore, hsum, div_zero]
    rfl
  · exact clampScore_of_range (meanScore_range hw)

theorem aggregate_confidence (threshold : ℚ) (symbol : Text) (votes : List (AgentSignal × ℚ))
    (now : UtcTime) : (aggregate threshold symbol votes now).confidence =
      |(aggregate threshold symbol votes now).score| := by
  rw [aggregate]
  split
  · exact abs_zero.symm
  · rfl

theorem aggregate_action {votes : List (AgentSignal × ℚ)} (hw : ∀ v ∈ votes, 0 ≤ v.2)
    (threshold : ℚ) (symbol : Text) (now : UtcTime) :
    (aggregate threshold symbol votes now).action =
      if (votes.map Prod.snd).sum = 0 then .hold else actionFor threshold (meanScore votes) := by
  have htotal : 0 ≤ (votes.map Prod.snd).sum := WeightedMean.total_nonneg hw
  rw [aggregate]
  by_cases hzero : (votes.map Prod.snd).sum = 0
  · rw [if_pos hzero.le, if_pos hzero]
    rfl
  · rw [if_neg fun hle => hzero (le_antisymm hle htotal), if_neg hzero]
    have hclamp : clampScore (rawScore votes / (votes.map Prod.snd).sum) = meanScore votes :=
      clampScore_of_range (meanScore_range hw)
    simp only [hclamp, actionFor]

theorem sameDecision_of_perm {votes votes' : List (AgentSignal × ℚ)} (h : votes'.Perm votes)
    (hw : ∀ v ∈ votes, 0 ≤ v.2) (threshold : ℚ) (symbol : Text) (now : UtcTime) :
    SameDecision (aggregate threshold symbol votes' now)
      (aggregate threshold symbol votes now) := by
  have hw' : ∀ v ∈ votes', 0 ≤ v.2 := fun v hv => hw v (h.mem_iff.mp hv)
  have hmean : meanScore votes' = meanScore votes := by
    rw [meanScore_eq, meanScore_eq, WeightedMean.mean_perm _ _ h]
  have hsum : (votes'.map Prod.snd).sum = (votes.map Prod.snd).sum := (h.map _).sum_eq
  refine ⟨?_, ?_, ?_⟩
  · rw [aggregate_score hw', aggregate_score hw, hmean]
  · rw [aggregate_action hw', aggregate_action hw, hmean, hsum]
  · rw [aggregate_confidence, aggregate_confidence, aggregate_score hw', aggregate_score hw, hmean]

/-- The decision is the weighted mean of the votes that survive. -/
theorem evaluate_aggregates (c : TradingCoordinator W) (w : W) (symbol : Text) (now : UtcTime) :
    ((c.evaluate w symbol now).score = meanScore (c.survivors w symbol) ∧
      (c.evaluate w symbol now).contributors = (c.survivors w symbol).map Prod.fst ∧
      (((c.survivors w symbol).map Prod.snd).sum ≠ 0 → (c.evaluate w symbol now).action =
        actionFor c.threshold (meanScore (c.survivors w symbol)))) ∧
    ((-1 ≤ meanScore (c.survivors w symbol) ∧ meanScore (c.survivors w symbol) ≤ 1) ∧
      clampScore (meanScore (c.survivors w symbol)) = meanScore (c.survivors w symbol)) ∧
    ((c.evaluate w symbol now).confidence = |(c.evaluate w symbol now).score| ∧
      0 ≤ |meanScore (c.survivors w symbol)| ∧ |meanScore (c.survivors w symbol)| ≤ 1) ∧
    (∀ c' : TradingCoordinator W, c'.threshold = c.threshold → c'.agents.Perm c.agents →
      SameDecision (c'.evaluate w symbol now) (c.evaluate w symbol now)) ∧
    (∀ c' : TradingCoordinator W, c'.threshold = c.threshold →
      Padded (Fails w symbol) c.agents c'.agents →
      SameDecision (c'.evaluate w symbol now) (c.evaluate w symbol now)) ∧
    (((c.survivors w symbol).map Prod.snd).sum = 0 →
      (c.evaluate w symbol now).action = .hold ∧ (c.evaluate w symbol now).score = 0) := by
  have hw := c.survivors_nonneg w symbol
  have hrange := meanScore_range hw
  refine ⟨⟨?_, ?_, ?_⟩, ⟨hrange, clampScore_of_range hrange⟩,
    ⟨?_, abs_nonneg _, abs_le.mpr hrange⟩, ?_, ?_, ?_⟩
  · rw [evaluate_eq, aggregate_score hw]
  · rw [evaluate_eq, aggregate]
    split <;> rfl
  · intro hsum
    rw [evaluate_eq, aggregate_action hw, if_neg hsum]
  · rw [evaluate_eq, aggregate_confidence]
  · intro c' hthreshold hperm
    rw [evaluate_eq, evaluate_eq, hthreshold]
    exact sameDecision_of_perm (hperm.filterMap _) hw _ _ _
  · intro c' hthreshold hpad
    have hvotes : c'.survivors w symbol = c.survivors w symbol := by
      apply hpad.filterMap_eq
      intro agent hfails
      dsimp only
      split
      · rfl
      · rename_i signal hsignal
        rw [if_pos (hfails signal hsignal)]
    rw [evaluate_eq, evaluate_eq, hthreshold, hvotes]
    exact ⟨rfl, rfl, rfl⟩
  · intro hsum
    rw [evaluate_eq]
    refine ⟨?_, ?_⟩
    · rw [aggregate_action hw, if_pos hsum]
    · rw [aggregate_score hw, meanScore, hsum, div_zero]

/-! ### Raising a vote -/

/-- The value that the weight of a vote multiplies. -/
def signedVote (signal : AgentSignal) : ℚ := actionScore signal.action * signal.confidence

/-- The order of the actions is that of their scores: SELL, HOLD, BUY. -/
theorem actionFor_mono {score score' : ℚ} (h : score ≤ score') (threshold : ℚ) :
    actionScore (actionFor threshold score) ≤ actionScore (actionFor threshold score') := by
  have hrange (a : Action) : -1 ≤ actionScore a ∧ actionScore a ≤ 1 := by cases a <;> decide
  by_cases hbuy : threshold ≤ score
  · rw [actionFor, if_pos hbuy, actionFor, if_pos (hbuy.trans h)]
  · by_cases hsell : score ≤ -threshold
    · rw [actionFor, if_neg hbuy, if_pos hsell]
      exact (hrange _).1
    · have hsell' : ¬ score' ≤ -threshold := fun hle => hsell (h.trans hle)
      rw [actionFor, if_neg hbuy, if_neg hsell, actionFor, if_neg hsell']
      split <;> decide

theorem below_replace (pre post : List (AgentSignal × ℚ)) {signal signal' : AgentSignal}
    (h : signedVote signal ≤ signedVote signal') (weight : ℚ) :
    WeightedMean.Below Prod.snd (fun v => signedVote v.1) (pre ++ (signal, weight) :: post)
      (pre ++ (signal', weight) :: post) := by
  have hself (votes : List (AgentSignal × ℚ)) :
      WeightedMean.Below Prod.snd (fun v => signedVote v.1) votes votes :=
    List.forall₂_same.mpr fun _ _ => ⟨rfl, le_rfl⟩
  exact List.rel_append (hself pre) (.cons ⟨rfl, h⟩ (hself post))

/-- A vote of larger signed value in the place of another neither lowers the score nor moves
the action down. -/
theorem aggregate_monotone {pre post : List (AgentSignal × ℚ)} {signal signal' : AgentSignal}
    {weight : ℚ} (hw : ∀ v ∈ pre ++ (signal, weight) :: post, 0 ≤ v.2)
    (h : signedVote signal ≤ signedVote signal') (threshold : ℚ) (symbol : Text)
    (now now' : UtcTime) :
    let before := aggregate threshold symbol (pre ++ (signal, weight) :: post) now
    let after := aggregate threshold symbol (pre ++ (signal', weight) :: post) now'
    before.score ≤ after.score ∧ actionScore before.action ≤ actionScore after.action := by
  intro before after
  have hbelow := below_replace pre post h weight
  have hw' : ∀ v ∈ pre ++ (signal', weight) :: post, 0 ≤ v.2 := by
    intro v hv
    rcases List.mem_append.mp hv with hv | hv
    · exact hw v (List.mem_append_left _ hv)
    · rcases List.mem_cons.mp hv with rfl | hv
      · exact hw (signal, weight) (List.mem_append_right _ List.mem_cons_self)
      · exact hw v (List.mem_append_right _ (List.mem_cons_of_mem _ hv))
  have hmean : meanScore (pre ++ (signal, weight) :: post) ≤
      meanScore (pre ++ (signal', weight) :: post) := by
    rw [meanScore_eq, meanScore_eq]
    exact WeightedMean.mean_mono hbelow hw
  refine ⟨?_, ?_⟩
  · rw [aggregate_score hw, aggregate_score hw']
    exact hmean
  · have htotal : ((pre ++ (signal, weight) :: post).map Prod.snd).sum =
        ((pre ++ (signal', weight) :: post).map Prod.snd).sum := WeightedMean.total_below hbelow
    rw [aggregate_action hw, aggregate_action hw', htotal]
    split
    · exact le_rfl
    · exact actionFor_mono hmean threshold

/-- A lone SELL at the threshold that becomes a HOLD. -/
theorem aggregate_monotone_lone :
    let ts : UtcTime := ⟨sampleDate, Time.midnight⟩
    let vote (action : Action) : AgentSignal :=
      ⟨text "quant", text "005930", action, 1, [], ts.toDateTime, one_confidence⟩
    let before := aggregate 1 (text "005930") [(vote .sell, 1)] ts
    let after := aggregate 1 (text "005930") [(vote .hold, 1)] ts
    (before.score ≤ after.score ∧ actionScore before.action ≤ actionScore after.action) ∧
      before.action = .sell ∧ after.action = .hold := by
  intro ts vote before after
  have hw : ∀ v ∈ ([] ++ (vote .sell, 1) :: [] : List (AgentSignal × ℚ)), 0 ≤ v.2 := by
    intro v hv
    rw [List.mem_singleton.mp hv]
    exact zero_le_one
  refine ⟨aggregate_monotone hw (by decide +kernel) 1 (text "005930") ts ts, ?_, ?_⟩
  · decide +kernel
  · decide +kernel

/-! ### The votes behind a decision -/

/-- A vote for the action that counts: with weight and confidence. -/
def VotedFor (votes : List (AgentSignal × ℚ)) (action : Action) : Prop :=
  ∃ v ∈ votes, 0 < v.2 ∧ v.1.action = action ∧ 0 < v.1.confidence

/-- A direction is emitted only where it was voted for. -/
def Backed (votes : List (AgentSignal × ℚ)) (decision : TradeSignal) : Prop :=
  (decision.action = .buy → VotedFor votes .buy) ∧
    (decision.action = .sell → VotedFor votes .sell)

theorem signedVote_pos_iff (signal : AgentSignal) :
    0 < signedVote signal ↔ signal.action = .buy ∧ 0 < signal.confidence := by
  have hconf := signal.confidence_range.1
  rw [signedVote]
  cases signal.action with
  | buy => simp [actionScore]
  | hold => simp [actionScore]
  | sell => simp [actionScore, hconf]

theorem signedVote_neg_iff (signal : AgentSignal) :
    signedVote signal < 0 ↔ signal.action = .sell ∧ 0 < signal.confidence := by
  have hconf := signal.confidence_range.1
  rw [signedVote]
  cases signal.action with
  | buy => simp [actionScore, hconf]
  | hold => simp [actionScore]
  | sell => simp [actionScore]

variable {votes : List (AgentSignal × ℚ)}

theorem votedFor_buy_of_pos (hw : ∀ v ∈ votes, 0 ≤ v.2) (h : 0 < meanScore votes) :
    VotedFor votes .buy := by
  rw [meanScore_eq] at h
  obtain ⟨v, hv, hweight, hvote⟩ := WeightedMean.exists_pos_of_mean_pos hw h
  obtain ⟨haction, hconf⟩ := (signedVote_pos_iff v.1).mp hvote
  exact ⟨v, hv, hweight, haction, hconf⟩

theorem votedFor_sell_of_neg (hw : ∀ v ∈ votes, 0 ≤ v.2) (h : meanScore votes < 0) :
    VotedFor votes .sell := by
  rw [meanScore_eq] at h
  obtain ⟨v, hv, hweight, hvote⟩ := WeightedMean.exists_neg_of_mean_neg hw h
  obtain ⟨haction, hconf⟩ := (signedVote_neg_iff v.1).mp hvote
  exact ⟨v, hv, hweight, haction, hconf⟩

/-- Votes against and none for a BUY leave the score below zero. -/
theorem meanScore_neg (hw : ∀ v ∈ votes, 0 ≤ v.2) (hbuy : ¬ VotedFor votes .buy)
    (hsell : VotedFor votes .sell) : meanScore votes < 0 := by
  have hterm (v : AgentSignal × ℚ) (hv : v ∈ votes) : v.2 * signedVote v.1 ≤ 0 := by
    by_contra hpos
    have hvote := pos_of_mul_pos_right (not_le.mp hpos) (hw v hv)
    have hweight := (pos_iff_pos_of_mul_pos (not_le.mp hpos)).mpr hvote
    obtain ⟨haction, hconf⟩ := (signedVote_pos_iff v.1).mp hvote
    exact hbuy ⟨v, hv, hweight, haction, hconf⟩
  obtain ⟨v, hv, hweight, haction, hconf⟩ := hsell
  have hvote := (signedVote_neg_iff v.1).mpr ⟨haction, hconf⟩
  have hsum := WeightedMean.weighted_neg hterm ⟨v, hv, mul_neg_of_pos_of_neg hweight hvote⟩
  have hnonneg : ∀ weight ∈ votes.map Prod.snd, 0 ≤ weight := by
    intro weight hmem
    obtain ⟨u, hu, rfl⟩ := List.mem_map.mp hmem
    exact hw u hu
  have htotal : 0 < (votes.map Prod.snd).sum :=
    hweight.trans_le (List.single_le_sum hnonneg _ (List.mem_map_of_mem hv))
  rw [meanScore_eq]
  exact div_neg_of_neg_of_pos hsum htotal

/-- Without a vote that counts the score is zero. -/
theorem meanScore_eq_zero (hw : ∀ v ∈ votes, 0 ≤ v.2) (hbuy : ¬ VotedFor votes .buy)
    (hsell : ¬ VotedFor votes .sell) : meanScore votes = 0 := by
  apply le_antisymm
  · exact not_lt.mp fun h => hbuy (votedFor_buy_of_pos hw h)
  · exact not_lt.mp fun h => hsell (votedFor_sell_of_neg hw h)

theorem aggregate_backed_iff (hw : ∀ v ∈ votes, 0 ≤ v.2) {threshold : ℚ} (h0 : 0 ≤ threshold)
    (symbol : Text) (now : UtcTime) :
    Backed votes (aggregate threshold symbol votes now) ↔
      0 < threshold ∨ (votes.map Prod.snd).sum = 0 ∨ VotedFor votes .buy ∨
        VotedFor votes .sell := by
  rw [Backed, aggregate_action hw]
  by_cases hzero : (votes.map Prod.snd).sum = 0
  · rw [if_pos hzero]
    exact iff_of_true ⟨nofun, nofun⟩ (.inr (.inl hzero))
  rw [if_neg hzero, actionFor]
  constructor
  · intro hbacked
    by_contra hnone
    obtain ⟨hthreshold, -, hbuy, hsell⟩ := by simpa only [not_or] using hnone
    have hscore := meanScore_eq_zero hw hbuy hsell
    have hle : threshold ≤ meanScore votes := hscore ▸ not_lt.mp hthreshold
    rw [if_pos hle] at hbacked
    exact hbuy (hbacked.1 rfl)
  · intro hcond
    by_cases hbuys : threshold ≤ meanScore votes
    · rw [if_pos hbuys]
      refine ⟨fun _ => ?_, nofun⟩
      rcases hcond with hpos | hcond | hbuy | hsell
      · exact votedFor_buy_of_pos hw (hpos.trans_le hbuys)
      · exact absurd hcond hzero
      · exact hbuy
      · by_contra hbuy
        exact absurd (h0.trans hbuys) (not_le.mpr (meanScore_neg hw hbuy hsell))
    · rw [if_neg hbuys]
      by_cases hsells : meanScore votes ≤ -threshold
      · rw [if_pos hsells]
        refine ⟨nofun, fun _ => votedFor_sell_of_neg hw ?_⟩
        rcases h0.lt_or_eq with hpos | rfl
        · exact hsells.trans_lt (neg_neg_of_pos hpos)
        · exact not_le.mp hbuys
      · rw [if_neg hsells]
        exact ⟨nofun, nofun⟩

/-- An agent that holds with full confidence. -/
def holdingAgent : Agent Unit where
  agentId := text "quant"
  evaluate _ symbol :=
    .ok ⟨text "quant", symbol, .hold, 1, [], UtcTime.toDateTime ⟨sampleDate, Time.midnight⟩,
      one_confidence⟩

end TradingCoordinator
end NexusBackend
