import NexusBackend.Persistence.TickLoop

/-!
The batches that the tick loop hands to `insert_batch`, against the ticks it has
received. Only the loop itself is covered here: what `stop()` does to a batch that is
under way is in the shutdown theorem.
-/
namespace NexusBackend

open Python Transition

namespace LoopEvent

def handedTicks : LoopEvent → List Tick
  | handed batch => batch
  | _ => []

end LoopEvent

/-- All batches handed to `insert_batch`, one after the other. -/
def handedOf (tr : List LoopEvent) : List Tick := tr.flatMap LoopEvent.handedTicks

theorem handedOf_append (tr es : List LoopEvent) :
    handedOf (tr ++ es) = handedOf tr ++ handedOf es := List.flatMap_append

theorem receivedOf_append (tr es : List LoopEvent) :
    receivedOf (tr ++ es) = receivedOf tr ++ receivedOf es := List.filterMap_append

namespace LoopState

variable {cfg : WorkerConfig}

/-- What a step hands on and what it leaves in the buffer is what was in the buffer and
what the step receives. -/
def Passes (s : LoopState cfg) (next : LoopState cfg × List LoopEvent) : Prop :=
  handedOf next.2 ++ next.1.worker.buffer.items =
    s.worker.buffer.items ++ receivedOf next.2

theorem passes_quiet {s t : LoopState cfg} {es : List LoopEvent} (hh : handedOf es = [])
    (hr : receivedOf es = []) (hb : t.worker.buffer = s.worker.buffer) : s.Passes (t, es) := by
  simp only [Passes, hh, hr, hb, List.nil_append, List.append_nil]

theorem passes_hand (s : LoopState cfg) (phase : LoopPhase) :
    s.Passes ({ s with worker := s.worker.clearBuffer, phase := phase },
      [.handed s.worker.buffer.items]) := by
  simp [Passes, handedOf, receivedOf, LoopEvent.handedTicks, LoopEvent.tick?,
    Worker.clearBuffer, BoundedDeque.empty]

theorem afterRead_passes (s : LoopState cfg) (now : ℚ) (isMessage : Bool) :
    s.Passes (s.afterRead now isMessage) := by
  simp only [LoopState.afterRead]
  split
  · exact passes_hand s _
  · exact passes_quiet rfl rfl rfl

theorem isFull_of_short {s : LoopState cfg}
    (h : s.worker.buffer.items.length < cfg.flushThreshold) :
    s.worker.buffer.isFull = false := by
  have hle := cfg.threshold_le
  simp only [BoundedDeque.isFull, decide_eq_false_iff_not]
  omega

theorem receive_passes (py : Worker.Interpreter) {s : LoopState cfg}
    (h : s.worker.buffer.items.length < cfg.flushThreshold) (now : ℚ) (msg : Worker.Message) :
    s.Passes (s.receive py now msg) := by
  simp only [LoopState.receive]
  split
  · exact passes_quiet rfl rfl rfl
  · exact afterRead_passes s now true
  · rename_i tick _
    have hitems : (s.worker.enqueue tick).buffer.items = s.worker.buffer.items ++ [tick] :=
      BoundedDeque.append_items_of_not_full tick (isFull_of_short h)
    have hnext := afterRead_passes { s with worker := s.worker.enqueue tick } now true
    simp only [Passes, hitems] at hnext ⊢
    have hreceived (es : List LoopEvent) :
        receivedOf (.received tick :: es) = tick :: receivedOf es := rfl
    have hhanded (es : List LoopEvent) :
        handedOf (.received tick :: es) = handedOf es := rfl
    rw [hreceived, hhanded, hnext, List.append_assoc]
    rfl

theorem drain_passes (s : LoopState cfg) : s.Passes s.drain := by
  simp only [LoopState.drain]
  split
  · exact passes_quiet rfl rfl rfl
  · exact passes_hand s _

theorem step_passes {py : Worker.Interpreter} {s : LoopState cfg}
    (h : s.worker.buffer.items.length < cfg.flushThreshold) {l : LoopLabel}
    {next : LoopState cfg × List LoopEvent} (hstep : s.step py l = some next) :
    s.Passes next := by
  cases step_turn hstep with
  | move => exact passes_quiet rfl rfl rfl
  | receive now msg => exact receive_passes py h now msg
  | idle now => exact afterRead_passes s now false
  | drain => exact drain_passes s
  | settle => exact passes_quiet rfl rfl rfl
  | cancel => exact passes_quiet rfl rfl rfl

end LoopState

section
variable {cfg : WorkerConfig} {py : Worker.Interpreter} {ls : List LoopLabel}
  {s : LoopState cfg} {tr : List LoopEvent}

theorem tickLoop_passes (hr : (tickLoop cfg py).run .initial ls = some (s, tr)) :
    s.Sound tr ∧ handedOf tr ++ s.worker.buffer.items = receivedOf tr := by
  refine Machine.run_invariant (I := fun s tr => LoopState.Sound s tr ∧
    handedOf tr ++ s.worker.buffer.items = receivedOf tr) ?_ ⟨LoopState.initial_sound, rfl⟩ hr
  intro s l s' es tr h hstep
  refine ⟨h.1.step hstep, ?_⟩
  have hpass : handedOf es ++ s'.worker.buffer.items = s.worker.buffer.items ++ receivedOf es :=
    LoopState.step_passes h.1.short hstep
  rw [handedOf_append, receivedOf_append, List.append_assoc, hpass, ← List.append_assoc, h.2]

theorem along_no_stop (hstop : .stop ∉ ls) (s : LoopState cfg) :
    (tickLoop cfg py).Along (fun s l => stopsInFlush s l = false) s ls := by
  induction ls generalizing s with
  | nil => trivial
  | cons l ls ih =>
      rw [List.mem_cons, not_or] at hstop
      refine ⟨?_, fun s' es _ => ih hstop.2 s'⟩
      cases l with
      | stop => exact absurd rfl hstop.1
      | _ => rfl

/-- Every valid tick has been handed to the database or is in the buffer, in the order of
arrival; the buffer never fills up; and between two inserts the counters add up. -/
theorem ticks_conserved (hr : (tickLoop cfg py).run .initial ls = some (s, tr))
    (hstop : .stop ∉ ls) :
    handedOf tr ++ s.worker.buffer.items = receivedOf tr ∧
      (s.worker.buffer.items.length < cfg.flushThreshold ∧ s.worker.buffer.isFull = false) ∧
      s.worker.ticksInserted + s.worker.ticksDropped + s.phase.inFlight.length +
          s.worker.buffer.items.length = (receivedOf tr).length ∧
      (s.phase.quiet = true → s.worker.ticksInserted + s.worker.ticksDropped +
          s.worker.buffer.items.length = (receivedOf tr).length) := by
  obtain ⟨hsound, hpass⟩ := tickLoop_passes hr
  have hcancel := (no_cancel_iff hr).mpr (along_no_stop hstop _)
  have hcount : s.worker.ticksInserted + s.worker.ticksDropped + s.phase.inFlight.length +
      s.worker.buffer.items.length = (receivedOf tr).length := by
    rw [hsound.counted, completedOf_eq_endedOf hcancel, ← hsound.in_order, List.length_append,
      List.length_append]
    omega
  refine ⟨hpass, ⟨hsound.short, LoopState.isFull_of_short hsound.short⟩, hcount, ?_⟩
  intro hquiet
  rw [LoopPhase.inFlight_of_quiet hquiet] at hcount
  simpa using hcount

/-- A session that reads a tick, breaks off, and reads another. -/
def brokenSession : List LoopLabel :=
  [.start, .subscribed (some 0), .read 1 (some tickMessage), .readFailed, .proceed, .proceed,
    .subscribed (some 2), .read 3 (some tickMessage), .inserted 1, .read 4 none]

theorem broken_session_conserves : ∃ s tr,
    (tickLoop lazyConfig Worker.samplePython).run .initial brokenSession = some (s, tr) ∧
      (receivedOf tr).length = 2 ∧ handedOf tr = receivedOf tr := by
  have h : ((tickLoop lazyConfig Worker.samplePython).run .initial brokenSession).map
      (fun out => ((receivedOf out.2).length, out.1.worker.buffer.items.length)) =
        some (2, 0) := by
    decide +kernel
  obtain ⟨⟨s, tr⟩, hr, hout⟩ := Option.map_eq_some_iff.mp h
  obtain ⟨hlen, hempty⟩ := Prod.mk.inj hout
  have hpass := (ticks_conserved hr (by simp [brokenSession])).1
  rw [List.eq_nil_of_length_eq_zero hempty, List.append_nil] at hpass
  exact ⟨s, tr, hr, hlen, hpass⟩

end

end NexusBackend
