import NexusBackend.Trading.Interleaving

/-!
The cool-down under overlapping ticks. The guard reads the snapshot its tick
took before the first `await`; while the last trade of the symbol is still the
one in that snapshot when the fill is recorded, fills of one symbol keep the
cool-down. Two ticks of one symbol that overlap break it.
-/
namespace NexusBackend

open Python Transition

namespace CoolDownGuard

/-- The snapshot is at least the cool-down away from the symbol's last trade in it. -/
def Elapsed (g : CoolDownGuard) (symbol : Text) (context : GuardContext) : Prop :=
  ∀ last, context.lastTradeAt.lookup symbol = some last →
    g.cooldownSeconds ≤ context.now.secondsSince last

theorem elapsed_of_allows {W : Type*} {g : CoolDownGuard} {w : W} {signal : TradeSignal}
    {context : GuardContext} (h : GuardrailPipeline.Allows w signal context g.toGuard) :
    g.Elapsed signal.symbol context := by
  obtain ⟨decision, hcheck, hallowed⟩ := h
  change g.check signal context = .ok decision at hcheck
  intro last hlast
  simp only [check] at hcheck
  rw [hlast] at hcheck
  dsimp only at hcheck
  split at hcheck
  · simp only [GuardDecision.block] at hcheck
    split at hcheck
    · cases hcheck
    · cases hcheck
      cases hallowed
  · rename_i hlt
    exact not_lt.mp hlt

end CoolDownGuard

theorem secondsSince_le_secondsSince {a b c : UtcTime} (h : a.instant ≤ b.instant) :
    a.secondsSince c ≤ b.secondsSince c := by
  simp only [UtcTime.secondsSince]
  have hle : a.instant - c.instant ≤ b.instant - c.instant := by omega
  have hq : ((a.instant - c.instant : Int) : ℚ) ≤ ((b.instant - c.instant : Int) : ℚ) :=
    Int.cast_le.mpr hle
  linarith

theorem secondsSince_trans {a b c : UtcTime} (h : a.instant ≤ b.instant) :
    c.secondsSince b ≤ c.secondsSince a := by
  simp only [UtcTime.secondsSince]
  have hle : c.instant - b.instant ≤ c.instant - a.instant := by omega
  have hq : ((c.instant - b.instant : Int) : ℚ) ≤ ((c.instant - a.instant : Int) : ℚ) :=
    Int.cast_le.mpr hle
  linarith

theorem instant_le_of_secondsSince {a b : UtcTime} (h : 0 ≤ b.secondsSince a) :
    a.instant ≤ b.instant := by
  simp only [UtcTime.secondsSince] at h
  have hq : (0 : ℚ) ≤ ((b.instant - a.instant : Int) : ℚ) := by linarith
  have hle : 0 ≤ b.instant - a.instant := Int.cast_nonneg_iff.mp hq
  omega

namespace TradingPipeline

variable {W : Type*} (p : TradingPipeline W)

/-- The wall clock does not go backwards. -/
def ClockForward (s : InterleavedState W) : TickLabel W → Prop
  | .arrive _ _ snapshotAt => s.clock ≤ snapshotAt.instant
  | .resume _ _ signalAt executeAt =>
      s.clock ≤ signalAt.instant ∧ signalAt.instant ≤ executeAt.instant

instance decidableClockForward : (s : InterleavedState W) → (l : TickLabel W) →
    Decidable (ClockForward s l)
  | s, .arrive _ _ snapshotAt => inferInstanceAs (Decidable (s.clock ≤ snapshotAt.instant))
  | s, .resume _ _ signalAt executeAt => inferInstanceAs
      (Decidable (s.clock ≤ signalAt.instant ∧ signalAt.instant ≤ executeAt.instant))

/-- Where the step is a broker's report of success, the last trade of the symbol is
still the one in the snapshot of the tick that placed the order. -/
def SnapshotCurrent (s : InterleavedState W) : TickLabel W → Bool
  | .arrive _ _ _ => true
  | .resume id w _ _ =>
      match s.tasks id with
      | some ⟨_, context, .broker _ _ call _⟩ =>
          !OrderExecutor.succeeded (p.executor.orderClient.placeOrder w call) ||
            s.pipeline.portfolio.lastTradeAt.lookup call.symbol =
              context.lastTradeAt.lookup call.symbol
      | _ => true

theorem SnapshotCurrent.lookup_eq {s : InterleavedState W} {id : Nat} {w : W}
    {signalAt executeAt at' : UtcTime} {task : TickTask W} {signal : TradeSignal}
    {guarded : GuardedSignal} {call : OrderCall}
    (h : p.SnapshotCurrent s (.resume id w signalAt executeAt) = true)
    (htask : s.tasks id = some task) (hphase : task.phase = .broker signal guarded call at')
    (hs : OrderExecutor.succeeded (p.executor.orderClient.placeOrder w call) = true) :
    s.pipeline.portfolio.lastTradeAt.lookup call.symbol =
      task.context.lastTradeAt.lookup call.symbol := by
  obtain ⟨tick, context, phase⟩ := task
  change phase = _ at hphase
  subst hphase
  simp only [SnapshotCurrent, htask] at h
  simpa [hs] using h

/-- What holds of a task at each of its awaits. -/
def PhaseSound (g : CoolDownGuard) (tick : Tick) (context : GuardContext) : TickPhase W → Prop
  | .coordinator => True
  | .guard signal current rest =>
      signal.symbol = tick.symbol ∧
        (g.toGuard ∈ current :: rest ∨ g.Elapsed tick.symbol context)
  | .broker _ _ call executeAt =>
      call.symbol = tick.symbol ∧ g.Elapsed tick.symbol context ∧
        context.now.instant ≤ executeAt.instant
  | .audit _ => True

def TaskSound (g : CoolDownGuard) (clock : Int) (task : TickTask W) : Prop :=
  task.context.now.instant ≤ clock ∧ PhaseSound g task.tick task.context task.phase

/-- A quiet advance to a sound phase, or to the end of the task. -/
def QuietSound (g : CoolDownGuard) (task : TickTask W) (s : PipelineState) (a : Advance W) :
    Prop :=
  Quiet s a ∧ ∀ phase, a.next = some phase → PhaseSound g task.tick task.context phase

theorem quietSound_failed (g : CoolDownGuard) (task : TickTask W) (s : PipelineState) :
    QuietSound g task s (failed s [] : Advance W) :=
  ⟨⟨rfl, rfl⟩, fun _ h => by cases h⟩

theorem phaseSound_toAudit {g : CoolDownGuard} {tick : Tick} {context : GuardContext}
    {s : PipelineState} {signal : TradeSignal} {guarded : GuardedSignal}
    {result : ExecutionResult} {before : List PipelineEvent} {phase : TickPhase W}
    (h : (p.toAudit s signal guarded result before).next = some phase) :
    PhaseSound g tick context phase := by
  rcases p.toAudit_next s signal guarded result before with hn | ⟨envelope, hn⟩
  · rw [hn] at h
    cases h
  · rw [hn] at h
    cases h
    trivial

/-- From the guards to the broker: a call goes out only after the cool-down. -/
theorem toBroker_quietSound {g : CoolDownGuard} {task : TickTask W} {s : PipelineState} {w : W}
    {signal : TradeSignal} {guarded : GuardedSignal} {executeAt : UtcTime}
    (hsym : guarded.effectiveSignal.symbol = task.tick.symbol)
    (hnow : task.context.now.instant ≤ executeAt.instant)
    (helapsed : guarded.effectiveSignal.action ≠ .hold →
      g.Elapsed task.tick.symbol task.context) :
    QuietSound g task s (p.toBroker s w signal guarded executeAt) := by
  simp only [toBroker]
  cases hplan : p.executor.plan w guarded executeAt with
  | error e => exact quietSound_failed g task s
  | ok plan =>
      cases plan with
      | done result =>
          exact ⟨p.toAudit_quiet (OrderExecutor.plan_done_not_executed hplan) rfl,
            fun _ h => p.phaseSound_toAudit h⟩
      | order call =>
          obtain ⟨-, hne, -, -, hcall, -⟩ := OrderExecutor.plan_order_inv hplan
          refine ⟨⟨rfl, rfl⟩, fun phase h => ?_⟩
          cases h
          exact ⟨hcall.trans hsym, helapsed hne, hnow⟩

theorem toGuards_quietSound {g : CoolDownGuard} {task : TickTask W} {s : PipelineState} {w : W}
    {signal : TradeSignal} {executeAt : UtcTime} {guards : List (OrderGuardrail W)}
    (hsym : signal.symbol = task.tick.symbol)
    (hnow : task.context.now.instant ≤ executeAt.instant)
    (h : g.toGuard ∈ guards ∨ g.Elapsed task.tick.symbol task.context) :
    QuietSound g task s (p.toGuards s w signal executeAt guards) := by
  cases guards with
  | nil =>
      have helapsed : g.Elapsed task.tick.symbol task.context := by simpa using h
      exact p.toBroker_quietSound hsym hnow fun _ => helapsed
  | cons guard rest =>
      refine ⟨⟨rfl, rfl⟩, fun phase hphase => ?_⟩
      cases hphase
      exact ⟨hsym, h⟩

/-- The answer of one guard: it blocks, or the rest of the guards and the cool-down remain. -/
theorem guard_quietSound {g : CoolDownGuard} {task : TickTask W} {signal : TradeSignal}
    {current : OrderGuardrail W} {rest : List (OrderGuardrail W)}
    (ht : task.phase = .guard signal current rest) (hsym : signal.symbol = task.tick.symbol)
    (hpending : g.toGuard ∈ current :: rest ∨ g.Elapsed task.tick.symbol task.context)
    (s : PipelineState) (w : W) (signalAt : UtcTime) {executeAt : UtcTime}
    (hlater : task.context.now.instant ≤ executeAt.instant) :
    QuietSound g task s (p.advance s task w signalAt executeAt) := by
  simp only [advance, ht]
  cases hcheck : current.check w signal task.context with
  | error e => exact quietSound_failed g task s
  | ok decision =>
      dsimp only
      cases hallowed : decision.allowed with
      | false =>
          rw [if_pos (by rfl)]
          have heff := GuardrailPipeline.block_effective signal current.guardId decision.reason
          refine p.toBroker_quietSound ?_ hlater ?_
          · rw [heff]
            exact hsym
          · rw [heff]
            exact fun hne => absurd rfl hne
      | true =>
          rw [if_neg (by simp)]
          refine p.toGuards_quietSound hsym hlater ?_
          rcases hpending with hmem | helapsed
          · rcases List.mem_cons.mp hmem with heq | hrest
            · rw [← hsym]
              refine .inr (CoolDownGuard.elapsed_of_allows (w := w) ?_)
              rw [heq]
              exact ⟨decision, hcheck, hallowed⟩
            · exact .inl hrest
          · exact .inr helapsed

/-- An advance of a sound task is quiet and leaves it sound, or records the fill
of its own call after the cool-down. -/
theorem advance_sound {g : CoolDownGuard} (hg : g.toGuard ∈ p.guardrails.guards)
    {task : TickTask W} {clock : Int} (hs : TaskSound g clock task) (s : PipelineState) (w : W)
    (signalAt : UtcTime) {executeAt : UtcTime} (hclock : clock ≤ executeAt.instant) :
    QuietSound g task s (p.advance s task w signalAt executeAt) ∨
      ∃ signal guarded call at', task.phase = .broker signal guarded call at' ∧
        OrderExecutor.succeeded (p.executor.orderClient.placeOrder w call) = true ∧
        call.symbol = task.tick.symbol ∧ g.Elapsed task.tick.symbol task.context ∧
        task.context.now.instant ≤ at'.instant ∧
        Records s ⟨call.symbol, call.action, call.quantity, at'⟩
          (p.advance s task w signalAt executeAt) ∧
        ∀ phase, (p.advance s task w signalAt executeAt).next = some phase →
          PhaseSound g task.tick task.context phase := by
  obtain ⟨hnow, hphase⟩ := hs
  have hlater : task.context.now.instant ≤ executeAt.instant := by omega
  cases ht : task.phase with
  | coordinator =>
      left
      simp only [advance, ht]
      split
      · rename_i hold
        exact p.toBroker_quietSound (TradingCoordinator.evaluate_symbol _ _ _ _) hlater
          (fun hne => absurd hold hne)
      · exact p.toGuards_quietSound (TradingCoordinator.evaluate_symbol _ _ _ _) hlater
          (.inl hg)
  | guard signal current rest =>
      rw [ht] at hphase
      exact .inl (p.guard_quietSound ht hphase.1 hphase.2 s w signalAt hlater)
  | broker signal guarded call at' =>
      rw [ht] at hphase
      obtain ⟨hsym, helapsed, hat⟩ := hphase
      simp only [advance, ht]
      rcases p.toAudit_settled s signal guarded call at'
        (p.executor.orderClient.placeOrder w call)
        [.orderReturned call (p.executor.orderClient.placeOrder w call)] rfl with
        hquiet | ⟨hsucc, hrec⟩
      · exact .inl ⟨hquiet, fun _ h => p.phaseSound_toAudit h⟩
      · exact .inr ⟨signal, guarded, call, at', rfl, hsucc, hsym, helapsed, hat, hrec,
          fun _ h => p.phaseSound_toAudit h⟩
  | audit envelope =>
      left
      simp only [advance, ht]
      split
      · exact ⟨⟨rfl, rfl⟩, fun _ h => by cases h⟩
      · split
        · exact ⟨⟨rfl, rfl⟩, fun _ h => by cases h⟩
        · exact ⟨⟨rfl, rfl⟩, fun _ h => by cases h⟩

/-! ### The invariant of the overlapping runs -/

/-- Fills of one symbol, in the order of their recording, keep the cool-down. -/
def Spaced (g : CoolDownGuard) (fills : List Fill) : Prop :=
  fills.Pairwise fun a b => a.symbol = b.symbol → g.cooldownSeconds ≤ b.ts.secondsSince a.ts

/-- The portfolio's last trade of a symbol is no earlier than any fill of it. -/
def LastTradeCovers (portfolio : Portfolio) (fills : List Fill) : Prop :=
  ∀ fill ∈ fills, ∃ last, portfolio.lastTradeAt.lookup fill.symbol = some last ∧
    fill.ts.instant ≤ last.instant

structure SpacingInvariant (g : CoolDownGuard) (s : InterleavedState W)
    (tr : List PipelineEvent) : Prop where
  tasks : ∀ id task, s.tasks id = some task → TaskSound g s.clock task
  spaced : Spaced g (fillsOf tr)
  covers : LastTradeCovers s.pipeline.portfolio (fillsOf tr)

theorem spacing_initial (g : CoolDownGuard) (context : TickContext) (clock : Int) :
    SpacingInvariant g (.initial context clock : InterleavedState W) [] :=
  ⟨fun _ _ h => (nomatch h), List.Pairwise.nil, fun _ h => (nomatch h)⟩

theorem TaskSound.later {g : CoolDownGuard} {c d : Int} {task : TickTask W}
    (h : TaskSound g c task) (hd : c ≤ d) : TaskSound g d task :=
  ⟨h.1.trans hd, h.2⟩

/-- A task that reaches a sound phase, the others standing still. -/
theorem tasks_sound_update {g : CoolDownGuard} {tasks : Nat → Option (TickTask W)} {c d : Int}
    {id : Nat} (task : TickTask W) (next : Option (TickPhase W))
    (h : ∀ id task, tasks id = some task → TaskSound g c task) (hd : c ≤ d)
    (hnow : task.context.now.instant ≤ d)
    (hnext : ∀ phase, next = some phase → PhaseSound g task.tick task.context phase) :
    ∀ id' task',
      Function.update tasks id (next.map fun phase => { task with phase := phase }) id' =
        some task' → TaskSound g d task' := by
  intro id' task' heq
  by_cases hid : id' = id
  · subst hid
    rw [Function.update_self] at heq
    obtain ⟨phase, hphase, rfl⟩ := Option.map_eq_some_iff.mp heq
    exact ⟨hnow, hnext phase hphase⟩
  · rw [Function.update_of_ne hid] at heq
    exact (h id' task' heq).later hd

/-- A fill after the cool-down, against the last trade on record, keeps the spacing. -/
theorem spaced_record {g : CoolDownGuard} {portfolio : Portfolio} {fills : List Fill}
    (fill : Fill) (now : UtcTime) (hspaced : Spaced g fills)
    (hcovers : LastTradeCovers portfolio fills)
    (helapsed : ∀ last, portfolio.lastTradeAt.lookup fill.symbol = some last →
      g.cooldownSeconds ≤ now.secondsSince last)
    (hnow : now.instant ≤ fill.ts.instant) :
    Spaced g (fills ++ [fill]) ∧ LastTradeCovers (portfolio.applyFill fill) (fills ++ [fill]) := by
  have hgap : ∀ f ∈ fills, f.symbol = fill.symbol →
      g.cooldownSeconds ≤ fill.ts.secondsSince f.ts := by
    intro f hf hsym
    obtain ⟨last, hlast, hle⟩ := hcovers f hf
    rw [hsym] at hlast
    calc g.cooldownSeconds ≤ now.secondsSince last := helapsed last hlast
      _ ≤ fill.ts.secondsSince last := secondsSince_le_secondsSince hnow
      _ ≤ fill.ts.secondsSince f.ts := secondsSince_trans hle
  constructor
  · refine List.pairwise_append.mpr ⟨hspaced, List.pairwise_singleton _ _, ?_⟩
    intro f hf x hx hsym
    obtain rfl := List.mem_singleton.mp hx
    exact hgap f hf hsym
  · intro f hf
    by_cases hsym : f.symbol = fill.symbol
    · refine ⟨fill.ts, by rw [hsym]; exact portfolio.lastTradeAt_applyFill_self fill, ?_⟩
      rcases List.mem_append.mp hf with hf | hf
      · exact instant_le_of_secondsSince (g.cooldown_nonneg.trans (hgap f hf hsym))
      · rw [List.mem_singleton.mp hf]
    · rcases List.mem_append.mp hf with hf | hf
      · obtain ⟨last, hlast, hle⟩ := hcovers f hf
        exact ⟨last, by rwa [portfolio.lastTradeAt_applyFill_of_ne hsym], hle⟩
      · exact absurd (congrArg Fill.symbol (List.mem_singleton.mp hf)) hsym

/-- One step, with a forward clock and a current snapshot, keeps the invariant. -/
theorem spacing_step {g : CoolDownGuard} (hg : g.toGuard ∈ p.guardrails.guards)
    {s s' : InterleavedState W} {l : TickLabel W} {es tr : List PipelineEvent}
    (hclock : ClockForward s l) (hcurrent : p.SnapshotCurrent s l = true)
    (hI : SpacingInvariant g s tr) (hstep : p.interleaved.step s l = some (s', es)) :
    SpacingInvariant g s' (tr ++ es) := by
  cases stepped hstep with
  | arrive id tick snapshotAt free next quiet =>
      subst next quiet
      rw [List.append_nil]
      exact ⟨tasks_sound_update (p.begin s.pipeline tick snapshotAt).2
        (some .coordinator) hI.tasks hclock (le_refl _)
        (fun _ h => by cases h; trivial), hI.spaced, hI.covers⟩
  | resume id w signalAt executeAt task htask next events =>
      subst next events
      have hforward : s.clock ≤ executeAt.instant := hclock.1.trans hclock.2
      have hsound := hI.tasks id task htask
      have hnow : task.context.now.instant ≤ executeAt.instant := hsound.1.trans hforward
      rcases p.advance_sound hg hsound s.pipeline w signalAt hforward with
        ⟨hquiet, hnext⟩ |
        ⟨signal, guarded, call, at', hphase, hsucc, hsym, helapsed, hat, hrec, hnext⟩
      · refine ⟨tasks_sound_update task _ hI.tasks hforward hnow hnext, ?_, ?_⟩
        · rw [fillsOf_append, hquiet.fills, List.append_nil]
          exact hI.spaced
        · rw [fillsOf_append, hquiet.fills, List.append_nil, hquiet.portfolio]
          exact hI.covers
      · have hlook := SnapshotCurrent.lookup_eq p hcurrent htask hphase hsucc
        obtain ⟨hspaced, hcovers⟩ := spaced_record
          ⟨call.symbol, call.action, call.quantity, at'⟩ task.context.now hI.spaced hI.covers
          (fun last hlast => helapsed last (by rwa [← hsym, ← hlook])) hat
        refine ⟨tasks_sound_update task _ hI.tasks hforward hnow hnext, ?_, ?_⟩
        · rw [fillsOf_append, hrec.fills]
          exact hspaced
        · rw [fillsOf_append, hrec.fills, hrec.portfolio]
          exact hcovers

/-- In every run in which each fill is recorded while its symbol's last trade is
still the one in its tick's snapshot, fills of one symbol keep the cool-down. -/
theorem interleaved_fills_spaced {p : TradingPipeline W} {g : CoolDownGuard}
    (hg : g.toGuard ∈ p.guardrails.guards) {context : TickContext} {clock : Int}
    {ls : List (TickLabel W)} {s : InterleavedState W} {tr : List PipelineEvent}
    (hr : p.interleaved.run (.initial context clock) ls = some (s, tr))
    (hclock : p.interleaved.Along ClockForward (.initial context clock) ls)
    (hcurrent : p.interleaved.Along (fun s l => p.SnapshotCurrent s l = true)
      (.initial context clock) ls) :
    Spaced g (fillsOf tr) := by
  have h := Machine.run_invariant_along (I := SpacingInvariant g)
    (fun s l s' es tr hC hI hstep => p.spacing_step hg hC.1 hC.2 hI hstep)
    (spacing_initial g context clock) (Machine.along_and hclock hcurrent) hr
  exact h.spaced

/-- The steps of one tick from its arrival to the broker's answer, under the wired guards. -/
def tickSteps (id : Nat) (minute : Fin 60) : List (TickLabel Unit) :=
  .arrive id sampleTick (sampleTime minute) ::
    List.replicate 5 (.resume id () (sampleTime minute) (sampleTime minute))

/-- The fills of a run of the steady buyer. -/
def steadyFills (ls : List (TickLabel Unit)) : Option (List Fill) :=
  ((steadyPipeline .buy).interleaved.run (.initial emptyContext 0) ls).map (fillsOf ·.2)

theorem run_of_steadyFills (ls : List (TickLabel Unit)) (fills : List Fill)
    (h : steadyFills ls = some fills) : ∃ s tr,
      (steadyPipeline .buy).interleaved.run (.initial emptyContext 0) ls = some (s, tr) ∧
        fillsOf tr = fills := by
  obtain ⟨⟨s, tr⟩, hr, hf⟩ := Option.map_eq_some_iff.mp h
  exact ⟨s, tr, hr, hf⟩

theorem separate_ticks_spaced : ∃ s tr,
    (steadyPipeline .buy).interleaved.run (.initial emptyContext 0)
        (tickSteps 0 0 ++ tickSteps 1 5) = some (s, tr) ∧
      fillsOf tr = [⟨sampleTick.symbol, .buy, 1, sampleTime 0⟩,
        ⟨sampleTick.symbol, .buy, 1, sampleTime 5⟩] ∧
      Spaced mainCoolDown (fillsOf tr) := by
  obtain ⟨s, tr, hr, hf⟩ := run_of_steadyFills (tickSteps 0 0 ++ tickSteps 1 5)
    [⟨sampleTick.symbol, .buy, 1, sampleTime 0⟩, ⟨sampleTick.symbol, .buy, 1, sampleTime 5⟩]
    (by decide +kernel)
  refine ⟨s, tr, hr, hf, ?_⟩
  exact interleaved_fills_spaced (List.mem_cons_of_mem _ List.mem_cons_self) hr
    (by decide +kernel) (by decide +kernel)

/-- Both ticks take their snapshot before either fill is recorded. -/
def overlappingSteps : List (TickLabel Unit) :=
  .arrive 1 sampleTick (sampleTime openingMinute) ::
    tickSteps 0 openingMinute ++ (tickSteps 1 openingMinute).tail

/-- Two ticks of one symbol that overlap are both executed, at the same moment. -/
theorem overlapping_ticks_not_spaced : ∃ s tr,
    (steadyPipeline .buy).interleaved.run (.initial emptyContext 0) overlappingSteps =
        some (s, tr) ∧
      mainCoolDown.toGuard ∈ (steadyPipeline .buy).guardrails.guards ∧
      (steadyPipeline .buy).executor.allowLiveOrders = true ∧
      (steadyPipeline .buy).interleaved.Along ClockForward (.initial emptyContext 0)
        overlappingSteps ∧
      fillsOf tr = [⟨sampleTick.symbol, .buy, 1, sampleTime 0⟩,
        ⟨sampleTick.symbol, .buy, 1, sampleTime 0⟩] ∧
      ¬ Spaced mainCoolDown (fillsOf tr) := by
  obtain ⟨s, tr, hr, hf⟩ := run_of_steadyFills overlappingSteps
    [⟨sampleTick.symbol, .buy, 1, sampleTime 0⟩, ⟨sampleTick.symbol, .buy, 1, sampleTime 0⟩]
    (by decide +kernel)
  refine ⟨s, tr, hr, List.mem_cons_of_mem _ List.mem_cons_self, rfl, by decide +kernel, hf, ?_⟩
  rw [hf]
  simp only [Spaced]
  decide +kernel

end TradingPipeline
end NexusBackend
