import NexusBackend.Library.Transition
import NexusBackend.Persistence.Worker

/-!
The tick loop of the persistence worker with `start()` and `stop()`, one await at a
time.

A cancellation reaches the task at the await it stands at. What follows an await runs
without interruption to the next one. Reads of the channel, the clock, the result of
`insert_batch` and every failure of the broker are chosen by the environment. Of two
calls of `stop()`, the second comes after the first has returned. Clock readings are
exact numbers of seconds.
-/
namespace NexusBackend

open Python Transition

/-- The await the loop, or `stop()` after it, stands at. -/
inductive LoopPhase
  | stopped
  | subscribing
  | waiting
  | flushing (batch : List Tick) (now : ℚ)
  | leaving
  | backingOff
  | unwinding
  | draining (batch : List Tick)
deriving DecidableEq

structure LoopState (cfg : WorkerConfig) where
  worker : Worker cfg
  phase : LoopPhase
  lastFlush : ℚ

/-- What the environment does next: the result of an await, or a call from outside. A
read returns a message of the channel or nothing; `none` for a subscription is a failure. -/
inductive LoopLabel
  | start
  | subscribed (now : Option ℚ)
  | read (now : ℚ) (msg : Option Worker.Message)
  | readFailed
  | inserted (k : Nat)
  | proceed
  | stop

inductive LoopEvent
  | received (tick : Tick)
  | handed (batch : List Tick)
  | inserted (batch : List Tick) (k : Nat)
  | cancelled (batch : List Tick)
deriving DecidableEq

namespace Worker

variable {cfg : WorkerConfig}

def clearBuffer (w : Worker cfg) : Worker cfg := { w with buffer := .empty }

/-- What the database did not take is counted as dropped. -/
def countInserted (w : Worker cfg) (batch : List Tick) (k : Nat) : Worker cfg :=
  { w with
    ticksInserted := w.ticksInserted + k
    ticksDropped := w.ticksDropped + (batch.length - k) }

end Worker

namespace LoopState

variable {cfg : WorkerConfig}

def initial : LoopState cfg := ⟨.init, .stopped, 0⟩

/-- `_flush_ticks` up to its await. -/
def flush (s : LoopState cfg) (now : ℚ) : LoopState cfg × List LoopEvent :=
  let batch := s.worker.buffer.items
  ({ s with worker := s.worker.clearBuffer, phase := .flushing batch now }, [.handed batch])

/-- The two tests after a read: enough ticks, or enough time. -/
def flushDue (s : LoopState cfg) (now : ℚ) (isMessage : Bool) : Bool :=
  isMessage && cfg.flushThreshold ≤ s.worker.buffer.items.length ||
    cfg.flushInterval ≤ now - s.lastFlush && !s.worker.buffer.items.isEmpty

def afterRead (s : LoopState cfg) (now : ℚ) (isMessage : Bool) :
    LoopState cfg × List LoopEvent :=
  if s.flushDue now isMessage then s.flush now else ({ s with phase := .waiting }, [])

/-- A message is parsed into the buffer; an error that gets past the handler ends the session. -/
def receive (py : Worker.Interpreter) (s : LoopState cfg) (now : ℚ) (msg : Worker.Message) :
    LoopState cfg × List LoopEvent :=
  match Worker.readTick py msg with
  | .error _ => ({ s with phase := .leaving }, [])
  | .ok none => s.afterRead now true
  | .ok (some tick) =>
      let next := { s with worker := s.worker.enqueue tick }.afterRead now true
      (next.1, .received tick :: next.2)

/-- The last part of `stop()`: what is still in the buffer is inserted. -/
def drain (s : LoopState cfg) : LoopState cfg × List LoopEvent :=
  let batch := s.worker.buffer.items
  if batch = [] then ({ s with phase := .stopped }, [])
  else ({ s with worker := s.worker.clearBuffer, phase := .draining batch }, [.handed batch])

/-- `stop()` at the await the task stands at: only an open session has something to unwind. -/
def cancel (s : LoopState cfg) : Option (LoopState cfg × List LoopEvent) :=
  match s.phase with
  | .stopped | .subscribing | .leaving | .backingOff => some s.drain
  | .waiting => some ({ s with phase := .unwinding }, [])
  | .flushing batch _ => some ({ s with phase := .unwinding }, [.cancelled batch])
  | .unwinding | .draining _ => none

/-- `insert_batch` has returned `k`. -/
def finishInsert (s : LoopState cfg) (k : Nat) : Option (LoopState cfg × List LoopEvent) :=
  match s.phase with
  | .flushing batch now =>
      if k ≤ batch.length then
        some ({ worker := s.worker.countInserted batch k, phase := .waiting, lastFlush := now },
          [.inserted batch k])
      else none
  | .draining batch =>
      if k ≤ batch.length then
        some ({ s with worker := s.worker.countInserted batch k, phase := .stopped },
          [.inserted batch k])
      else none
  | _ => none

def step (py : Worker.Interpreter) (s : LoopState cfg) :
    LoopLabel → Option (LoopState cfg × List LoopEvent)
  | .start => if s.phase = .stopped then some ({ s with phase := .subscribing }, []) else none
  | .subscribed now =>
      if s.phase = .subscribing then
        match now with
        | some now => some ({ s with phase := .waiting, lastFlush := now }, [])
        | none => some ({ s with phase := .backingOff }, [])
      else none
  | .read now msg =>
      if s.phase = .waiting then
        match msg with
        | some msg => some (s.receive py now msg)
        | none => some (s.afterRead now false)
      else none
  | .readFailed => if s.phase = .waiting then some ({ s with phase := .leaving }, []) else none
  | .inserted k => s.finishInsert k
  | .proceed =>
      match s.phase with
      | .leaving => some ({ s with phase := .backingOff }, [])
      | .backingOff => some ({ s with phase := .subscribing }, [])
      | .unwinding => some s.drain
      | _ => none
  | .stop => s.cancel

end LoopState

def tickLoop (cfg : WorkerConfig) (py : Worker.Interpreter) :
    Machine (LoopState cfg) LoopLabel LoopEvent :=
  ⟨LoopState.step py⟩

/-! ### Accounts of a run -/

/-- The message that a step reads. -/
def LoopLabel.message? : LoopLabel → Option Worker.Message
  | .read _ msg => msg
  | _ => none

namespace LoopEvent

def tick? : LoopEvent → Option Tick
  | received tick => some tick
  | _ => none

/-- The ticks of an insert that ran to completion. -/
def completed : LoopEvent → List Tick
  | inserted batch _ => batch
  | received _ | handed _ | cancelled _ => []

/-- The ticks of an insert that has ended, run to completion or cancelled. -/
def ended : LoopEvent → List Tick
  | inserted batch _ | cancelled batch => batch
  | received _ | handed _ => []

end LoopEvent

/-- The valid ticks received. -/
def receivedOf (tr : List LoopEvent) : List Tick := tr.filterMap LoopEvent.tick?

def completedOf (tr : List LoopEvent) : List Tick := tr.flatMap LoopEvent.completed

def endedOf (tr : List LoopEvent) : List Tick := tr.flatMap LoopEvent.ended

def LoopPhase.inFlight : LoopPhase → List Tick
  | .flushing batch _ | .draining batch => batch
  | _ => []

/-- The task has ended, and `stop()` has taken what was in the buffer. -/
def LoopPhase.closed : LoopPhase → Bool
  | .stopped | .draining _ => true
  | _ => false

/-- No insert is under way. -/
def LoopPhase.quiet : LoopPhase → Bool
  | .flushing .. | .draining _ => false
  | _ => true

theorem LoopPhase.inFlight_of_quiet {phase : LoopPhase} (h : phase.quiet = true) :
    phase.inFlight = [] := by
  cases phase with
  | flushing batch now => cases h
  | draining batch => cases h
  | _ => rfl

/-- Every tick received has gone through a completed insert, and the counters add up. -/
def Conserved {cfg : WorkerConfig} (s : LoopState cfg) (tr : List LoopEvent) : Prop :=
  completedOf tr = receivedOf tr ∧
    s.worker.ticksInserted + s.worker.ticksDropped = (receivedOf tr).length

/-- A call of `stop()` finds the loop in a flush. -/
def stopsInFlush {cfg : WorkerConfig} (s : LoopState cfg) (l : LoopLabel) : Bool :=
  match l, s.phase with
  | .stop, .flushing .. => true
  | _, _ => false

section
variable (tr : List LoopEvent)

@[simp] theorem receivedOf_received (tick : Tick) :
    receivedOf (tr ++ [.received tick]) = receivedOf tr ++ [tick] := List.filterMap_append ..

@[simp] theorem receivedOf_other {e : LoopEvent} (he : e.tick? = none) :
    receivedOf (tr ++ [e]) = receivedOf tr := by
  simp [receivedOf, List.filterMap_append, he]

theorem completedOf_cons (e : LoopEvent) :
    completedOf (e :: tr) = e.completed ++ completedOf tr := List.flatMap_cons

theorem endedOf_cons (e : LoopEvent) : endedOf (e :: tr) = e.ended ++ endedOf tr :=
  List.flatMap_cons

@[simp] theorem completedOf_concat (e : LoopEvent) :
    completedOf (tr ++ [e]) = completedOf tr ++ e.completed := by
  simp [completedOf]

@[simp] theorem endedOf_concat (e : LoopEvent) :
    endedOf (tr ++ [e]) = endedOf tr ++ e.ended := by
  simp [endedOf]

end

namespace LoopState

variable {cfg : WorkerConfig}

/-- Each tick received is in an insert that has ended, in the one under way or in the buffer,
in this order; the counters count the completed inserts; no insert is for nothing. -/
structure Accounted (s : LoopState cfg) (tr : List LoopEvent) : Prop where
  in_order : endedOf tr ++ (s.phase.inFlight ++ s.worker.buffer.items) = receivedOf tr
  counted : s.worker.ticksInserted + s.worker.ticksDropped = (completedOf tr).length
  flushing_ne : ∀ batch now, s.phase = .flushing batch now → batch ≠ []
  closed_empty : s.phase.closed = true → s.worker.buffer.items = []
  cancelled_ne : ∀ batch, .cancelled batch ∈ tr → batch ≠ []

/-- Between any two awaits the buffer is also below the threshold, so that it drops no tick. -/
structure Sound (s : LoopState cfg) (tr : List LoopEvent) : Prop extends s.Accounted tr where
  short : s.worker.buffer.items.length < cfg.flushThreshold

theorem initial_sound : (initial : LoopState cfg).Sound [] where
  in_order := rfl
  counted := rfl
  flushing_ne := nofun
  closed_empty := fun _ => rfl
  cancelled_ne := nofun
  short := cfg.threshold_pos

variable {s : LoopState cfg} {tr : List LoopEvent}

/-- Only the phase and the time of the last flush change, with no insert under way. -/
theorem Accounted.move (h : s.Accounted tr) (hquiet : s.phase.inFlight = []) (phase : LoopPhase)
    (now : ℚ) (hnext : phase.quiet = true)
    (hclosed : phase.closed = true → s.worker.buffer.items = []) :
    Accounted { s with phase := phase, lastFlush := now } (tr ++ []) := by
  rw [List.append_nil]
  refine ⟨?_, h.counted, ?_, hclosed, h.cancelled_ne⟩
  · rw [← h.in_order, hquiet, LoopPhase.inFlight_of_quiet hnext]
  · rintro batch now rfl
    cases hnext

theorem Sound.move (h : s.Sound tr) (hquiet : s.phase.inFlight = []) (phase : LoopPhase)
    (now : ℚ) (hnext : phase.quiet = true)
    (hclosed : phase.closed = true → s.worker.buffer.items = []) :
    Sound { s with phase := phase, lastFlush := now } (tr ++ []) :=
  ⟨h.toAccounted.move hquiet phase now hnext hclosed, h.short⟩

/-- The buffer goes to the database. -/
theorem Accounted.hand (h : s.Accounted tr) (hquiet : s.phase.inFlight = []) (phase : LoopPhase)
    (hnext : phase.inFlight = s.worker.buffer.items) (hne : s.worker.buffer.items ≠ []) :
    Sound { s with worker := s.worker.clearBuffer, phase := phase }
      (tr ++ [.handed s.worker.buffer.items]) where
  in_order := by
    have hempty : (s.worker.clearBuffer).buffer.items = [] := rfl
    rw [endedOf_concat, receivedOf_other _ rfl, ← h.in_order, hquiet, hempty, hnext]
    simp [LoopEvent.ended]
  counted := by
    rw [completedOf_concat, LoopEvent.completed, List.append_nil]
    exact h.counted
  flushing_ne := by
    rintro batch now rfl
    rw [← hnext] at hne
    exact hne
  closed_empty := fun _ => rfl
  cancelled_ne := by simpa using h.cancelled_ne
  short := cfg.threshold_pos

theorem Accounted.afterRead (h : s.Accounted tr) (hw : s.phase = .waiting) (now : ℚ)
    {isMessage : Bool}
    (hlen : s.worker.buffer.items.length < cfg.flushThreshold ∨ isMessage = true) :
    (s.afterRead now isMessage).1.Sound (tr ++ (s.afterRead now isMessage).2) := by
  have hquiet : s.phase.inFlight = [] := by rw [hw]; rfl
  simp only [LoopState.afterRead]
  split
  · rename_i hdue
    have hne : s.worker.buffer.items ≠ [] := by
      intro hempty
      have hpos := cfg.threshold_pos
      simp only [flushDue, hempty, List.length_nil, List.isEmpty_nil, Bool.not_true,
        Bool.and_false, Bool.or_false, Bool.and_eq_true, decide_eq_true_eq] at hdue
      omega
    exact h.hand hquiet _ rfl hne
  · rename_i hdue
    refine ⟨h.move hquiet .waiting s.lastFlush rfl nofun, ?_⟩
    obtain hlt | rfl := hlen
    · exact hlt
    · simp only [flushDue, Bool.true_and, Bool.or_eq_true, decide_eq_true_eq, not_or] at hdue
      exact Nat.lt_of_not_le hdue.1

/-- A tick that arrives where the buffer is below the threshold drops no other. -/
theorem Sound.enqueue (h : s.Sound tr) (hw : s.phase = .waiting) (tick : Tick) :
    Accounted { s with worker := s.worker.enqueue tick } (tr ++ [.received tick]) := by
  have hfull : s.worker.buffer.isFull = false := by
    have hle := cfg.threshold_le
    have hshort := h.short
    simp only [BoundedDeque.isFull, decide_eq_false_iff_not]
    omega
  have hitems : (s.worker.enqueue tick).buffer.items = s.worker.buffer.items ++ [tick] :=
    BoundedDeque.append_items_of_not_full tick hfull
  refine ⟨?_, ?_, ?_, ?_, ?_⟩
  · rw [endedOf_concat, receivedOf_received, ← h.in_order]
    dsimp only
    rw [hitems]
    simp [LoopEvent.ended]
  · rw [completedOf_concat, LoopEvent.completed, List.append_nil]
    simpa [Worker.enqueue, hfull] using h.counted
  · exact h.flushing_ne
  · intro hp
    rw [hw] at hp
    cases hp
  · simpa using h.cancelled_ne

theorem Sound.receive (py : Worker.Interpreter) (h : s.Sound tr) (hw : s.phase = .waiting)
    (now : ℚ) (msg : Worker.Message) :
    (s.receive py now msg).1.Sound (tr ++ (s.receive py now msg).2) := by
  have hquiet : s.phase.inFlight = [] := by rw [hw]; rfl
  simp only [LoopState.receive]
  split
  · exact h.move hquiet .leaving s.lastFlush rfl nofun
  · exact h.toAccounted.afterRead hw now (.inr rfl)
  · rename_i tick _
    dsimp only
    rw [List.append_cons]
    exact (h.enqueue hw tick).afterRead hw now (.inr rfl)

theorem Sound.drain (h : s.Sound tr) (hquiet : s.phase.inFlight = []) :
    s.drain.1.Sound (tr ++ s.drain.2) := by
  unfold LoopState.drain
  dsimp only
  split
  · rename_i hempty
    exact h.move hquiet .stopped s.lastFlush rfl fun _ => hempty
  · rename_i hne
    exact h.toAccounted.hand hquiet _ rfl hne

theorem counted_inserted (w : Worker cfg) {batch : List Tick} {k : Nat} (hk : k ≤ batch.length) :
    (w.countInserted batch k).ticksInserted + (w.countInserted batch k).ticksDropped =
      w.ticksInserted + w.ticksDropped + batch.length := by
  simp only [Worker.countInserted]
  omega

/-- An insert that runs to completion settles its batch. -/
theorem Sound.settle (h : s.Sound tr) {batch : List Tick} (hflight : s.phase.inFlight = batch)
    {k : Nat} (hk : k ≤ batch.length) (phase : LoopPhase) (now : ℚ)
    (hquiet : phase.quiet = true) (hclosed : phase.closed = true → s.worker.buffer.items = []) :
    Sound { worker := s.worker.countInserted batch k, phase := phase, lastFlush := now }
      (tr ++ [.inserted batch k]) where
  in_order := by
    rw [endedOf_concat, receivedOf_other _ rfl, ← h.in_order, hflight,
      LoopPhase.inFlight_of_quiet hquiet]
    simp [LoopEvent.ended, Worker.countInserted]
  counted := by
    rw [counted_inserted _ hk, h.counted, completedOf_concat, List.length_append]
    rfl
  flushing_ne := by
    rintro batch now rfl
    cases hquiet
  closed_empty := hclosed
  cancelled_ne := by simpa using h.cancelled_ne
  short := h.short

/-- A flush that is cancelled leaves its batch uncounted. -/
theorem Sound.cancelFlush (h : s.Sound tr) {batch : List Tick} {now : ℚ}
    (hphase : s.phase = .flushing batch now) :
    Sound { s with phase := .unwinding } (tr ++ [.cancelled batch]) where
  in_order := by
    rw [endedOf_concat, receivedOf_other _ rfl, ← h.in_order, hphase]
    simp [LoopEvent.ended, LoopPhase.inFlight]
  counted := by
    rw [completedOf_concat, LoopEvent.completed, List.append_nil]
    exact h.counted
  flushing_ne := nofun
  closed_empty := nofun
  cancelled_ne := by
    intro b hb
    rcases List.mem_append.mp hb with hb | hb
    · exact h.cancelled_ne b hb
    · cases List.mem_singleton.mp hb
      exact h.flushing_ne _ _ hphase
  short := h.short

/-! ### What a step does -/

/-- The steps by what they do: between quiet phases nothing but the phase and the time of the
last flush changes. -/
inductive Turn (py : Worker.Interpreter) (s : LoopState cfg) :
    LoopLabel → LoopState cfg × List LoopEvent → Prop
  | move {l : LoopLabel} (phase : LoopPhase) (now : ℚ) (silent : l.message? = none)
      (quiet : s.phase.quiet = true) (next : phase.quiet = true) (opened : phase.closed = false) :
      Turn py s l ({ s with phase := phase, lastFlush := now }, [])
  | receive (now : ℚ) (msg : Worker.Message) (waiting : s.phase = .waiting) :
      Turn py s (.read now (some msg)) (s.receive py now msg)
  | idle (now : ℚ) (waiting : s.phase = .waiting) :
      Turn py s (.read now none) (s.afterRead now false)
  | drain {l : LoopLabel} (silent : l.message? = none) (quiet : s.phase.quiet = true) :
      Turn py s l s.drain
  | settle (batch : List Tick) (k : Nat) (phase : LoopPhase) (now : ℚ)
      (flight : s.phase.inFlight = batch) (le : k ≤ batch.length) (next : phase.quiet = true)
      (closes : phase.closed = true → s.phase.closed = true) :
      Turn py s (.inserted k)
        ({ worker := s.worker.countInserted batch k, phase := phase, lastFlush := now },
          [.inserted batch k])
  | cancel (batch : List Tick) (now : ℚ) (flushing : s.phase = .flushing batch now) :
      Turn py s .stop ({ s with phase := .unwinding }, [.cancelled batch])

section
variable {py : Worker.Interpreter} {next : LoopState cfg × List LoopEvent}

theorem cancel_turn (hstep : s.cancel = some next) : Turn py s .stop next := by
  rw [LoopState.cancel] at hstep
  split at hstep <;> rename_i hphase <;> cases hstep
  · exact .drain rfl (by rw [hphase]; rfl)
  · exact .drain rfl (by rw [hphase]; rfl)
  · exact .drain rfl (by rw [hphase]; rfl)
  · exact .drain rfl (by rw [hphase]; rfl)
  · exact .move .unwinding s.lastFlush rfl (by rw [hphase]; rfl) rfl rfl
  · exact .cancel _ _ hphase

theorem finishInsert_turn {k : Nat} (hstep : s.finishInsert k = some next) :
    Turn py s (.inserted k) next := by
  rw [LoopState.finishInsert] at hstep
  split at hstep
  · rename_i batch now hphase
    obtain ⟨hk, hnext⟩ := Option.ite_none_right_eq_some.mp hstep
    cases hnext
    exact .settle batch k .waiting now (by rw [hphase]; rfl) hk rfl
      fun hclosed => absurd hclosed Bool.false_ne_true
  · rename_i batch hphase
    obtain ⟨hk, hnext⟩ := Option.ite_none_right_eq_some.mp hstep
    cases hnext
    exact .settle batch k .stopped s.lastFlush (by rw [hphase]; rfl) hk rfl
      fun _ => by rw [hphase]; rfl
  · cases hstep

theorem step_turn {l : LoopLabel} (hstep : s.step py l = some next) : Turn py s l next := by
  cases l with
  | start =>
      obtain ⟨hphase, hnext⟩ := Option.ite_none_right_eq_some.mp hstep
      cases hnext
      exact .move .subscribing s.lastFlush rfl (by rw [hphase]; rfl) rfl rfl
  | subscribed now =>
      obtain ⟨hphase, hnext⟩ := Option.ite_none_right_eq_some.mp hstep
      cases now with
      | some now =>
          cases hnext
          exact .move .waiting now rfl (by rw [hphase]; rfl) rfl rfl
      | none =>
          cases hnext
          exact .move .backingOff s.lastFlush rfl (by rw [hphase]; rfl) rfl rfl
  | read now msg =>
      obtain ⟨hphase, hnext⟩ := Option.ite_none_right_eq_some.mp hstep
      cases msg with
      | some msg =>
          cases hnext
          exact .receive now msg hphase
      | none =>
          cases hnext
          exact .idle now hphase
  | readFailed =>
      obtain ⟨hphase, hnext⟩ := Option.ite_none_right_eq_some.mp hstep
      cases hnext
      exact .move .leaving s.lastFlush rfl (by rw [hphase]; rfl) rfl rfl
  | inserted k => exact finishInsert_turn hstep
  | proceed =>
      simp only [LoopState.step] at hstep
      split at hstep <;> rename_i hphase <;> cases hstep
      · exact .move .backingOff s.lastFlush rfl (by rw [hphase]; rfl) rfl rfl
      · exact .move .subscribing s.lastFlush rfl (by rw [hphase]; rfl) rfl rfl
      · exact .drain rfl (by rw [hphase]; rfl)
  | stop => exact cancel_turn hstep

end

/-- What one step keeps. -/
theorem Sound.step {py : Worker.Interpreter} {l : LoopLabel} (h : s.Sound tr)
    {next : LoopState cfg × List LoopEvent} (hstep : s.step py l = some next) :
    next.1.Sound (tr ++ next.2) := by
  cases step_turn hstep with
  | move phase now _ quiet next opened =>
      exact h.move (LoopPhase.inFlight_of_quiet quiet) phase now next
        fun closed => absurd (opened.symm.trans closed) Bool.false_ne_true
  | receive now msg waiting => exact h.receive py waiting now msg
  | idle now waiting => exact h.toAccounted.afterRead waiting now (.inl h.short)
  | drain _ quiet => exact h.drain (LoopPhase.inFlight_of_quiet quiet)
  | settle batch k phase now flight le next closes =>
      exact h.settle flight le phase now next fun closed => h.closed_empty (closes closed)
  | cancel batch now flushing => exact h.cancelFlush flushing

end LoopState

section
variable {cfg : WorkerConfig} {py : Worker.Interpreter} {ls : List LoopLabel}
  {s : LoopState cfg} {tr : List LoopEvent}

/-- What a run keeps. -/
theorem tickLoop_sound (hr : (tickLoop cfg py).run .initial ls = some (s, tr)) : s.Sound tr :=
  Machine.run_invariant (I := LoopState.Sound)
    (fun _ _ _ _ _ h hstep => h.step hstep) LoopState.initial_sound hr

def LoopEvent.isCancelled : LoopEvent → Bool
  | cancelled _ => true
  | _ => false

theorem afterRead_keeps (s : LoopState cfg) (now : ℚ) (isMessage : Bool) :
    ∀ e ∈ (s.afterRead now isMessage).2, e.isCancelled = false := by
  simp only [LoopState.afterRead]
  split <;> simp [LoopState.flush, LoopEvent.isCancelled]

theorem receive_keeps (s : LoopState cfg) (now : ℚ) (msg : Worker.Message) :
    ∀ e ∈ (s.receive py now msg).2, e.isCancelled = false := by
  simp only [LoopState.receive]
  split
  · simp
  · exact afterRead_keeps _ _ _
  · intro e he
    rcases List.mem_cons.mp he with rfl | he
    · rfl
    · exact afterRead_keeps _ _ _ e he

theorem drain_keeps (s : LoopState cfg) : ∀ e ∈ s.drain.2, e.isCancelled = false := by
  unfold LoopState.drain
  dsimp only
  split <;> simp [LoopEvent.isCancelled]

theorem stopsInFlush_of_quiet (h : s.phase.quiet = true) (l : LoopLabel) :
    stopsInFlush s l = false := by
  cases l with
  | stop =>
      cases hphase : s.phase with
      | flushing batch now =>
          rw [hphase] at h
          cases h
      | _ => simp only [stopsInFlush, hphase]
  | _ => rfl

/-- A step cancels an insert exactly where it is a `stop()` that finds the loop in a flush. -/
theorem step_cancels_iff {l : LoopLabel} {next : LoopState cfg × List LoopEvent}
    (hstep : s.step py l = some next) :
    (∀ e ∈ next.2, ¬ e.isCancelled = true) ↔ stopsInFlush s l = false := by
  simp only [Bool.not_eq_true]
  cases LoopState.step_turn hstep with
  | move _ _ _ quiet => exact iff_of_true (by simp) (stopsInFlush_of_quiet quiet l)
  | receive now msg => exact iff_of_true (receive_keeps s now msg) rfl
  | idle now => exact iff_of_true (afterRead_keeps s now false) rfl
  | drain _ quiet => exact iff_of_true (drain_keeps s) (stopsInFlush_of_quiet quiet l)
  | settle batch k => exact iff_of_true (by simp [LoopEvent.isCancelled]) rfl
  | cancel batch now flushing =>
      have hstops : stopsInFlush s .stop = true := by simp only [stopsInFlush, flushing]
      rw [hstops]
      simp [LoopEvent.isCancelled]

theorem no_cancel_iff (hr : (tickLoop cfg py).run .initial ls = some (s, tr)) :
    (∀ e ∈ tr, ¬ e.isCancelled = true) ↔
      (tickLoop cfg py).Along (fun s l => stopsInFlush s l = false) .initial ls :=
  Machine.run_avoids_iff (I := fun _ => True) (fun _ _ _ _ _ _ => trivial)
    (fun _ _ _ _ _ hstep => step_cancels_iff hstep) trivial hr

theorem completedOf_length_le (tr : List LoopEvent) :
    (completedOf tr).length ≤ (endedOf tr).length := by
  induction tr with
  | nil => exact Nat.le_refl 0
  | cons e tr ih =>
      have he : e.completed.length ≤ e.ended.length := by
        cases e <;> simp [LoopEvent.completed, LoopEvent.ended]
      rw [completedOf_cons, endedOf_cons, List.length_append, List.length_append]
      omega

/-- The inserts that have ended are as many ticks as the completed ones exactly where
none was cancelled. -/
theorem completedOf_length_eq_iff (hne : ∀ batch, .cancelled batch ∈ tr → batch ≠ []) :
    (completedOf tr).length = (endedOf tr).length ↔ ∀ e ∈ tr, ¬ e.isCancelled = true := by
  induction tr with
  | nil => exact iff_of_true rfl (by simp)
  | cons e tr ih =>
      have hrest := ih fun batch hb => hne batch (List.mem_cons_of_mem e hb)
      have hle := completedOf_length_le tr
      rw [List.forall_mem_cons, ← hrest, completedOf_cons, endedOf_cons, List.length_append,
        List.length_append]
      cases e with
      | cancelled batch =>
          have hb := List.length_pos_iff.mpr (hne batch List.mem_cons_self)
          refine iff_of_false ?_ fun h => h.1 rfl
          simp only [LoopEvent.completed, LoopEvent.ended, List.length_nil]
          omega
      | _ => simp [LoopEvent.completed, LoopEvent.ended, LoopEvent.isCancelled]

theorem completedOf_eq_endedOf (h : ∀ e ∈ tr, ¬ e.isCancelled = true) :
    completedOf tr = endedOf tr := by
  refine List.flatMap_congr fun e he => ?_
  cases e with
  | cancelled batch => exact absurd rfl (h _ he)
  | _ => rfl

/-- A run that ends stopped has conserved its ticks exactly where no `stop()` of it found the
loop in a flush. -/
theorem shutdown_conserves_iff (hr : (tickLoop cfg py).run .initial ls = some (s, tr))
    (hs : s.phase = .stopped) :
    Conserved s tr ↔ (tickLoop cfg py).Along (fun s l => stopsInFlush s l = false) .initial ls := by
  have hsound := tickLoop_sound hr
  have hended : endedOf tr = receivedOf tr := by
    have h := hsound.in_order
    rw [hsound.closed_empty (by rw [hs]; rfl), hs] at h
    simpa [LoopPhase.inFlight] using h
  rw [← no_cancel_iff hr, Conserved, hsound.counted, ← hended,
    completedOf_length_eq_iff hsound.cancelled_ne]
  exact ⟨fun h => h.2, fun h => ⟨completedOf_eq_endedOf h, h⟩⟩

end

/-! ### Two shutdowns -/

/-- Every tick is flushed at once. -/
def eagerConfig : WorkerConfig :=
  ⟨1, 5, 1, by decide, WorkerConfig.default.interval_pos, by decide⟩

def lazyConfig : WorkerConfig :=
  ⟨2, 5, 2, by decide, WorkerConfig.default.interval_pos, by decide⟩

def tickMessage : Worker.Message :=
  .str (text "\x7b\"symbol\": \"A\", \"ts\": \"2026-05-10\", \"price\": 1, \"volume\": 1\x7d")

/-- The phase in which a run ends, and whether its counters cover what it received. -/
def outcomeOf (cfg : WorkerConfig) (ls : List LoopLabel) : Option (LoopPhase × Bool) :=
  ((tickLoop cfg Worker.samplePython).run .initial ls).map fun (s, tr) =>
    (s.phase, s.worker.ticksInserted + s.worker.ticksDropped = (receivedOf tr).length)

theorem run_of_outcomeOf {cfg : WorkerConfig} {ls : List LoopLabel} {phase : LoopPhase}
    {covered : Bool} (h : outcomeOf cfg ls = some (phase, covered)) : ∃ s tr,
      (tickLoop cfg Worker.samplePython).run .initial ls = some (s, tr) ∧ s.phase = phase ∧
        decide (s.worker.ticksInserted + s.worker.ticksDropped = (receivedOf tr).length) =
          covered := by
  obtain ⟨⟨s, tr⟩, hr, hout⟩ := Option.map_eq_some_iff.mp h
  obtain ⟨hphase, hcovered⟩ := Prod.mk.inj hout
  exact ⟨s, tr, hr, hphase, hcovered⟩

def stopWhileWaiting : List LoopLabel :=
  [.start, .subscribed (some 0), .read 1 (some tickMessage), .stop, .proceed, .inserted 1]

def stopInFlush : List LoopLabel :=
  [.start, .subscribed (some 0), .read 1 (some tickMessage), .stop, .proceed]

theorem stop_while_waiting_conserves : ∃ s tr,
    (tickLoop lazyConfig Worker.samplePython).run .initial stopWhileWaiting = some (s, tr) ∧
      s.phase = .stopped ∧ Conserved s tr := by
  obtain ⟨s, tr, hr, hphase, -⟩ :=
    run_of_outcomeOf (show outcomeOf lazyConfig stopWhileWaiting = some (.stopped, true) by
      decide +kernel)
  exact ⟨s, tr, hr, hphase, (shutdown_conserves_iff hr hphase).mpr (by decide +kernel)⟩

/-- `stop()` while a flush awaits the database: the batch is in no completed insert and in no
counter. -/
theorem stop_in_flush_loses : ∃ s tr,
    (tickLoop eagerConfig Worker.samplePython).run .initial stopInFlush = some (s, tr) ∧
      s.phase = .stopped ∧ ¬ Conserved s tr := by
  obtain ⟨s, tr, hr, hphase, hcovered⟩ :=
    run_of_outcomeOf (show outcomeOf eagerConfig stopInFlush = some (.stopped, false) by
      decide +kernel)
  exact ⟨s, tr, hr, hphase, fun h => of_decide_eq_false hcovered h.2⟩

end NexusBackend
