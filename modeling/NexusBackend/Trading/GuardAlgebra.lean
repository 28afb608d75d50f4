import NexusBackend.Trading.Guardrails

/-!
The verdict of the guard pipeline over different lists of guards: what more guards, or
another order, can change, and which guards are asked at all. Guards that raise are left
to the pipeline that calls them.
-/
namespace NexusBackend
namespace GuardrailPipeline

open Python

variable {W : Type*} {w : W} {signal : TradeSignal} {context : GuardContext}

/-- The loop with the guards whose `check` it awaits. -/
def consult (w : W) (signal : TradeSignal) (context : GuardContext) :
    List (OrderGuardrail W) → List (OrderGuardrail W) × Except Exn GuardedSignal
  | [] => ([], .ok (allow signal))
  | guard :: guards =>
      match guard.check w signal context with
      | .error e => ([guard], .error e)
      | .ok decision =>
          if !decision.allowed then ([guard], .ok (block signal guard.guardId decision.reason))
          else
            let rest := consult w signal context guards
            (guard :: rest.1, rest.2)

theorem consult_result (w : W) (signal : TradeSignal) (context : GuardContext)
    (guards : List (OrderGuardrail W)) :
    (consult w signal context guards).2 = runGuards w signal context guards := by
  induction guards with
  | nil => rfl
  | cons guard guards ih =>
      simp only [consult, runGuards]
      cases guard.check w signal context with
      | error e => rfl
      | ok decision => cases hallowed : decision.allowed <;> simp [hallowed, ih]

/-- The guard returns normally. -/
def Returns (w : W) (signal : TradeSignal) (context : GuardContext) (guard : OrderGuardrail W) :
    Prop :=
  ∃ decision, guard.check w signal context = .ok decision

/-- The guard returns normally and refuses, with this reason. -/
def Blocks (w : W) (signal : TradeSignal) (context : GuardContext) (guard : OrderGuardrail W)
    (reason : Text) : Prop :=
  ∃ decision, guard.check w signal context = .ok decision ∧ decision.allowed = false ∧
    decision.reason = reason

theorem consult_cons_allows {guard : OrderGuardrail W} (h : Allows w signal context guard)
    (guards : List (OrderGuardrail W)) :
    consult w signal context (guard :: guards) =
      (guard :: (consult w signal context guards).1, (consult w signal context guards).2) := by
  obtain ⟨decision, hcheck, hallowed⟩ := h
  simp [consult, hcheck, hallowed]

/-- Past guards that allow, the one that blocks ends the loop, whatever comes after it. -/
theorem consult_blocks {pre : List (OrderGuardrail W)} {guard : OrderGuardrail W} {reason : Text}
    (hpre : ∀ g ∈ pre, Allows w signal context g) (h : Blocks w signal context guard reason)
    (post : List (OrderGuardrail W)) :
    consult w signal context (pre ++ guard :: post) =
      (pre ++ [guard], .ok (block signal guard.guardId reason)) := by
  induction pre with
  | nil =>
      obtain ⟨decision, hcheck, hallowed, rfl⟩ := h
      simp [consult, hcheck, hallowed]
  | cons g pre ih =>
      rw [List.forall_mem_cons] at hpre
      rw [List.cons_append, consult_cons_allows hpre.1, ih hpre.2]
      rfl

theorem consult_allows {guards : List (OrderGuardrail W)}
    (h : ∀ g ∈ guards, Allows w signal context g) :
    consult w signal context guards = (guards, .ok (allow signal)) := by
  induction guards with
  | nil => rfl
  | cons g guards ih =>
      rw [List.forall_mem_cons] at h
      rw [consult_cons_allows h.1, ih h.2]

/-- Either all guards allow, or there is a first one that blocks. -/
theorem first_block {guards : List (OrderGuardrail W)}
    (h : ∀ g ∈ guards, Returns w signal context g) :
    (∀ g ∈ guards, Allows w signal context g) ∨
      ∃ pre guard reason post, guards = pre ++ guard :: post ∧
        (∀ g ∈ pre, Allows w signal context g) ∧ Blocks w signal context guard reason := by
  induction guards with
  | nil => exact .inl nofun
  | cons g guards ih =>
      rw [List.forall_mem_cons] at h
      obtain ⟨decision, hcheck⟩ := h.1
      cases hallowed : decision.allowed with
      | false => exact .inr ⟨[], g, decision.reason, guards, rfl, nofun, decision, hcheck,
          hallowed, rfl⟩
      | true =>
          have hg : Allows w signal context g := ⟨decision, hcheck, hallowed⟩
          obtain hall | ⟨pre, guard, reason, post, rfl, hpre, hblocks⟩ := ih h.2
          · exact .inl (List.forall_mem_cons.mpr ⟨hg, hall⟩)
          · exact .inr ⟨g :: pre, guard, reason, post, rfl, List.forall_mem_cons.mpr ⟨hg, hpre⟩,
              hblocks⟩

/-- Whether the pipeline allows the signal. -/
def Permits (p : GuardrailPipeline W) (w : W) (signal : TradeSignal) (context : GuardContext) :
    Prop :=
  ∃ g, p.evaluate w signal context = .ok g ∧ g.allowed = true

theorem permits_iff (p : GuardrailPipeline W) (w : W) (signal : TradeSignal)
    (context : GuardContext) :
    p.Permits w signal context ↔
      signal.action = .hold ∨ ∀ guard ∈ p.guards, Allows w signal context guard := by
  rw [← runGuards_allowed_iff, Permits, evaluate]
  by_cases hold : signal.action = .hold
  · rw [if_pos hold]
    exact iff_of_true ⟨_, rfl, rfl⟩ (.inl hold)
  · rw [if_neg hold]
    exact ⟨.inr, fun h => h.resolve_left hold⟩

theorem evaluate_consult {p : GuardrailPipeline W} (hold : signal.action ≠ .hold) :
    p.evaluate w signal context = (consult w signal context p.guards).2 := by
  rw [evaluate, if_neg hold, consult_result]

theorem permits_iff_allowed {p : GuardrailPipeline W} {g : GuardedSignal}
    (hg : p.evaluate w signal context = .ok g) :
    p.Permits w signal context ↔ g.allowed = true := by
  refine ⟨?_, fun h => ⟨g, hg, h⟩⟩
  rintro ⟨g', hg', hallowed⟩
  rw [hg] at hg'
  cases hg'
  exact hallowed

/-- What more guards permit, fewer of them do. -/
theorem Permits.of_sublist {p q : GuardrailPipeline W} (h : q.Permits w signal context)
    (hsub : p.guards.Sublist q.guards) : p.Permits w signal context := by
  rw [permits_iff] at h ⊢
  exact h.imp id fun h guard hmem => h guard (hsub.subset hmem)

/-- The verdict of a pipeline none of whose guards raises. -/
theorem evaluate_verdict (p : GuardrailPipeline W) (w : W) (signal : TradeSignal)
    (context : GuardContext) (hreturns : ∀ guard ∈ p.guards, Returns w signal context guard) :
    ∃ g, p.evaluate w signal context = .ok g ∧
      (g.allowed = true ↔
        signal.action = .hold ∨ ∀ guard ∈ p.guards, Allows w signal context guard) ∧
      (∀ q : GuardrailPipeline W, p.guards.Sublist q.guards → g.allowed = false →
        ¬ q.Permits w signal context) ∧
      (∀ q : GuardrailPipeline W, q.guards.Perm p.guards →
        (q.Permits w signal context ↔ g.allowed = true)) ∧
      (g.allowed = true → g.blockedBy = none ∧ g.reason = none) ∧
      (g.allowed = false → ∃ pre guard reason post, p.guards = pre ++ guard :: post ∧
        (∀ x ∈ pre, Allows w signal context x) ∧ Blocks w signal context guard reason ∧
        g.blockedBy = some guard.guardId ∧ g.reason = some reason ∧
        ∀ others, consult w signal context (pre ++ guard :: others) = (pre ++ [guard], .ok g)) ∧
      g.signal = signal ∧
      g.effectiveSignal = if g.allowed then signal else { signal with action := .hold } := by
  have hrelated (g : GuardedSignal) (hg : p.evaluate w signal context = .ok g) :
      (g.allowed = true ↔
        signal.action = .hold ∨ ∀ guard ∈ p.guards, Allows w signal context guard) ∧
      (∀ q : GuardrailPipeline W, p.guards.Sublist q.guards → g.allowed = false →
        ¬ q.Permits w signal context) ∧
      ∀ q : GuardrailPipeline W, q.guards.Perm p.guards →
        (q.Permits w signal context ↔ g.allowed = true) := by
    rw [← permits_iff_allowed hg]
    refine ⟨permits_iff p w signal context, ?_, ?_⟩
    · intro q hsub hblocked hq
      rw [(permits_iff_allowed hg).mp (hq.of_sublist hsub)] at hblocked
      cases hblocked
    · intro q hperm
      rw [permits_iff, permits_iff]
      simp only [hperm.mem_iff]
  by_cases hold : signal.action = .hold
  · have hg : p.evaluate w signal context = .ok (allow signal) := if_pos hold
    exact ⟨_, hg, (hrelated _ hg).1, (hrelated _ hg).2.1, (hrelated _ hg).2.2,
      fun _ => ⟨rfl, rfl⟩, nofun, rfl, rfl⟩
  · obtain hall | ⟨pre, guard, reason, post, hsplit, hpre, hblocks⟩ := first_block hreturns
    · have hg : p.evaluate w signal context = .ok (allow signal) := by
        rw [evaluate_consult hold, consult_allows hall]
      exact ⟨_, hg, (hrelated _ hg).1, (hrelated _ hg).2.1, (hrelated _ hg).2.2,
        fun _ => ⟨rfl, rfl⟩, nofun, rfl, rfl⟩
    · have hg : p.evaluate w signal context = .ok (block signal guard.guardId reason) := by
        rw [evaluate_consult hold, hsplit, consult_blocks hpre hblocks]
      exact ⟨_, hg, (hrelated _ hg).1, (hrelated _ hg).2.1, (hrelated _ hg).2.2, nofun,
        fun _ => ⟨pre, guard, reason, post, hsplit, hpre, hblocks, rfl, rfl,
          consult_blocks hpre hblocks⟩, rfl, rfl⟩

/-- Two guards, the second of which blocks. -/
def openThenShut : GuardrailPipeline Unit :=
  ⟨[⟨text "open", fun _ _ _ => .ok .allow⟩,
    ⟨text "shut", fun _ _ _ => GuardDecision.block (text "closed")⟩]⟩

def buySignal : TradeSignal where
  symbol := text "005930"
  action := .buy
  confidence := 1
  score := 1
  contributors := []
  ts := ⟨sampleDate, .midnight⟩
  confidence_range := one_confidence
  score_range := by decide

def morningContext : GuardContext := { now := buySignal.ts }

theorem openThenShut_verdict : ∃ g,
    openThenShut.evaluate () buySignal morningContext = .ok g ∧ g.allowed = false ∧
      ∀ q : GuardrailPipeline Unit, openThenShut.guards.Sublist q.guards →
        ¬ q.Permits () buySignal morningContext := by
  obtain ⟨g, hg, -, hmore, -⟩ := evaluate_verdict openThenShut () buySignal morningContext
    (by simp [openThenShut, Returns, GuardDecision.block, text])
  obtain rfl : block buySignal (text "shut") (text "closed") = g := Except.ok.inj hg
  exact ⟨_, hg, rfl, fun q hsub => hmore q hsub rfl⟩

end GuardrailPipeline
end NexusBackend
