import NexusBackend.Trading.Aggregation
import NexusBackend.Trading.GuardAlgebra
import NexusBackend.Trading.Pipeline

/-!
Which decision, verdict and execution the audit envelope of a tick reports. A tick publishes
at most one envelope, whatever becomes of the publishing.
-/
namespace NexusBackend

open Python

/-! ### Verdicts and executions -/

namespace GuardrailPipeline

variable {W : Type*} {w : W} {signal : TradeSignal} {context : GuardContext}

/-- The guard is the first of the list that blocks, with this reason. -/
def FirstBlock (w : W) (signal : TradeSignal) (context : GuardContext)
    (guards : List (OrderGuardrail W)) (guard : OrderGuardrail W) (reason : Text) : Prop :=
  ∃ pre post, guards = pre ++ guard :: post ∧ (∀ g ∈ pre, Allows w signal context g) ∧
    Blocks w signal context guard reason

theorem runGuards_cases {guards : List (OrderGuardrail W)} {g : GuardedSignal}
    (h : runGuards w signal context guards = .ok g) :
    g = allow signal ∨ ∃ guard reason, FirstBlock w signal context guards guard reason ∧
      g = block signal guard.guardId reason := by
  induction guards with
  | nil =>
      cases h
      exact .inl rfl
  | cons guard guards ih =>
      simp only [runGuards] at h
      cases hcheck : guard.check w signal context with
      | error e =>
          rw [hcheck] at h
          cases h
      | ok decision =>
          rw [hcheck] at h
          cases hallowed : decision.allowed with
          | false =>
              simp only [hallowed, Bool.not_false, if_true, Except.ok.injEq] at h
              refine .inr ⟨guard, decision.reason, ⟨[], guards, rfl, List.forall_mem_nil _, ?_⟩,
                h.symm⟩
              exact ⟨decision, hcheck, hallowed, rfl⟩
          | true =>
              simp only [hallowed, Bool.not_true, Bool.false_eq_true, if_false] at h
              obtain hallow | ⟨first, reason, ⟨pre, post, hsplit, hpre, hblocks⟩, hg⟩ := ih h
              · exact .inl hallow
              · refine .inr ⟨first, reason, ⟨guard :: pre, post, ?_, ?_, hblocks⟩, hg⟩
                · rw [hsplit, List.cons_append]
                · exact List.forall_mem_cons.mpr ⟨⟨decision, hcheck, hallowed⟩, hpre⟩

theorem evaluate_of_firstBlock {p : GuardrailPipeline W} {guard : OrderGuardrail W} {reason : Text}
    (hold : signal.action ≠ .hold) (h : FirstBlock w signal context p.guards guard reason) :
    p.evaluate w signal context = .ok (block signal guard.guardId reason) := by
  obtain ⟨pre, post, hsplit, hpre, hblocks⟩ := h
  rw [evaluate_consult hold, hsplit, consult_blocks hpre hblocks]

theorem evaluate_of_allows {p : GuardrailPipeline W}
    (h : signal.action = .hold ∨ ∀ guard ∈ p.guards, Allows w signal context guard) :
    p.evaluate w signal context = .ok (allow signal) := by
  by_cases hold : signal.action = .hold
  · rw [evaluate, if_pos hold]
  · rw [evaluate_consult hold, consult_allows (h.resolve_left hold)]

/-- The verdict on a signal: it passes, or the first guard that blocks it decides. -/
theorem evaluate_cases {p : GuardrailPipeline W} {g : GuardedSignal}
    (h : p.evaluate w signal context = .ok g) :
    g = allow signal ∨ signal.action ≠ .hold ∧ ∃ guard reason,
      FirstBlock w signal context p.guards guard reason ∧
        g = block signal guard.guardId reason := by
  rw [evaluate] at h
  split at h
  · cases h
    exact .inl rfl
  · rename_i hold
    exact (runGuards_cases h).imp id fun hblock => ⟨hold, hblock⟩

end GuardrailPipeline

namespace OrderExecutor

variable {W : Type*}

/-- What `execute` can make of a guarded signal: one case for each of its exits. -/
inductive Executed (ex : OrderExecutor W) (w : W) (guarded : GuardedSignal) (now : UtcTime) :
    ExecutionResult → Prop
  | held (h : guarded.effectiveSignal.action = .hold) :
      Executed ex w guarded now
        { mode := .noop, executed := false, intendedAction := .hold,
          intendedSymbol := guarded.effectiveSignal.symbol, reason := guarded.blockedBy, ts := now }
  | unsized (h : guarded.effectiveSignal.action ≠ .hold) :
      Executed ex w guarded now
        { mode := .noop, executed := false, intendedAction := guarded.effectiveSignal.action,
          intendedSymbol := guarded.effectiveSignal.symbol,
          reason := some (text "sizer returned 0 — confidence below floor"), ts := now }
  | shadowed (h : guarded.effectiveSignal.action ≠ .hold) {quantity : Int}
      (hsize : ex.sizer.quantity w guarded.effectiveSignal = .ok quantity) (hpos : 0 < quantity) :
      Executed ex w guarded now
        { mode := .shadow, executed := false, intendedAction := guarded.effectiveSignal.action,
          intendedSymbol := guarded.effectiveSignal.symbol, intendedQuantity := quantity,
          reason := some (text "ALLOW_LIVE_ORDERS=false"), ts := now }
  | ordered (h : guarded.effectiveSignal.action ≠ .hold) {quantity : Int}
      (hsize : ex.sizer.quantity w guarded.effectiveSignal = .ok quantity) (hpos : 0 < quantity)
      (outcome : Except Exn OrderResult) :
      Executed ex w guarded now
        (settle ⟨guarded.effectiveSignal.symbol, guarded.effectiveSignal.action, quantity⟩ now
          outcome)

theorem plan_executed {ex : OrderExecutor W} {w : W} {guarded : GuardedSignal} {now : UtcTime}
    {first : ExecutionPlan} (h : ex.plan w guarded now = .ok first) :
    ex.Executed w guarded now (ex.carryOut w now first).1 := by
  cases plan_planned h with
  | held hold =>
      rw [carryOut, hold]
      exact .held hold
  | unsized hold => exact .unsized hold
  | shadowed hold hsize hpos => exact .shadowed hold hsize hpos
  | ordered _ hold hsize hpos => exact .ordered hold hsize hpos _

theorem execute_executed {ex : OrderExecutor W} {w : W} {guarded : GuardedSignal} {now : UtcTime}
    {result : ExecutionResult} {made : Option (OrderCall × Except Exn OrderResult)}
    (h : ex.execute w guarded now = .ok (result, made)) : ex.Executed w guarded now result := by
  rw [execute] at h
  cases hplan : ex.plan w guarded now with
  | error e =>
      rw [hplan] at h
      cases h
  | ok plan =>
      rw [hplan] at h
      have hresult : ex.carryOut w now plan = (result, made) := Except.ok.inj h
      have hexecuted := plan_executed hplan
      rwa [hresult] at hexecuted

end OrderExecutor

/-! ### The envelopes of a tick -/

def PipelineEvent.audit? : PipelineEvent → Option AuditEnvelope
  | publishAudit envelope => some envelope
  | _ => none

/-- The envelopes handed to the publisher, in order. -/
def auditsOf (events : List PipelineEvent) : List AuditEnvelope :=
  events.filterMap PipelineEvent.audit?

theorem auditsOf_append (es fs : List PipelineEvent) :
    auditsOf (es ++ fs) = auditsOf es ++ auditsOf fs := List.filterMap_append

namespace TradingPipeline

variable {W : Type*} (p : TradingPipeline W)

theorem auditsOf_publishAudit (s : PipelineState) (w : W) (envelope : AuditEnvelope) :
    auditsOf (p.publishAudit s w envelope).2 = [] ∨
      auditsOf (p.publishAudit s w envelope).2 = [envelope] := by
  rw [publishAudit]
  split
  · exact .inl rfl
  · split <;> exact .inr rfl

theorem auditsOf_callEvents (made : Option (OrderCall × Except Exn OrderResult)) :
    auditsOf (callEvents made) = [] := by
  cases made <;> rfl

theorem auditsOf_applyResult {s s' : PipelineState} {result : ExecutionResult}
    {fills : List PipelineEvent} (h : applyResult s result = .ok (s', fills)) :
    auditsOf fills = [] := by
  rw [applyResult] at h
  split at h
  · dsimp only at h
    cases hfill : s.portfolio.recordFill ⟨result.intendedSymbol, result.intendedAction,
        result.intendedQuantity, result.ts⟩ with
    | error e =>
        rw [hfill] at h
        cases h
    | ok portfolio =>
        rw [hfill] at h
        cases h
        rfl
  · cases h
    rfl

/-- A tick publishes nothing, or the one envelope of its verdict and its execution. -/
theorem auditsOf_onTick (s : PipelineState) (inp : TickInput W) :
    auditsOf (p.onTick s inp).events = [] ∨
      ∃ guarded result made,
        p.guardrails.evaluate inp.world (p.decision inp) (p.snapshot s.countTick inp) =
          .ok guarded ∧
        p.executor.execute inp.world guarded inp.executeAt = .ok (result, made) ∧
        auditsOf (p.onTick s inp).events =
          [buildAuditEnvelope (p.decision inp) guarded result] := by
  have hevents : (p.onTick s inp).events = (p.process s.countTick inp).events := by
    rw [onTick, handled]
    split <;> rfl
  rw [hevents, process]
  cases hg : p.guardrails.evaluate inp.world (p.decision inp) (p.snapshot s.countTick inp) with
  | error e => exact .inl rfl
  | ok guarded =>
      dsimp only
      rw [act]
      cases hx : p.executor.execute inp.world guarded inp.executeAt with
      | error e => exact .inl rfl
      | ok executed =>
          obtain ⟨result, made⟩ := executed
          dsimp only
          rw [conclude]
          cases happly : applyResult (s.countTick.record inp.tick) result with
          | error e => exact .inl (auditsOf_callEvents made)
          | ok applied =>
              obtain ⟨s', fills⟩ := applied
              dsimp only
              rw [auditsOf_append, auditsOf_append, auditsOf_callEvents,
                auditsOf_applyResult happly, List.nil_append, List.nil_append]
              obtain h | h := p.auditsOf_publishAudit s' inp.world
                (buildAuditEnvelope (p.decision inp) guarded result)
              · exact .inl h
              · exact .inr ⟨guarded, result, made, rfl, hx, h⟩

/-- The confidence of a decision is the absolute value of its score. -/
theorem decision_confidence (inp : TickInput W) :
    (p.decision inp).confidence = |(p.decision inp).score| := by
  rw [decision, TradingCoordinator.evaluate_eq, TradingCoordinator.aggregate_confidence]

end TradingPipeline
end NexusBackend
