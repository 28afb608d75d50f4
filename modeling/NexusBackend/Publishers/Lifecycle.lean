import NexusBackend.Kis.Session
import NexusBackend.Library.Tasks
import NexusBackend.Persistence.TickLoop

/-!
How the publishers, their supervisor and the process are stopped.

A `stop()` is run to its end: a field `…Answer` says how the task, if it still runs, ends
once it is cancelled, and a field of type `Except` says what a call into a library does.
`KisClient.close` catches every exception, so nothing of it is awaited here that can raise.
What the watchdog does while it unwinds is not run: the supervisor's other fields are those
of the moment the watchdog has ended. `lifespan` is its shutdown section only.
-/
namespace NexusBackend

open Python

/-! ### Publishers -/

inductive PublisherKind
  | kis
  | mock
deriving DecidableEq

/-- A `KisPublisher` with its refresh task, or a `MockPublisher`, which has none. -/
structure Publisher where
  kind : PublisherKind
  refresh : TaskStatus := .unset
  task : TaskStatus := .unset
deriving DecidableEq

structure StopAnswers where
  refresh : TaskEnd
  task : TaskEnd

namespace Publisher

def isRunning (p : Publisher) : Bool := p.task.isRunning

/-- `MockPublisher.stop`, and the second half of `KisPublisher.stop`. -/
def stopTask (p : Publisher) (answers : StopAnswers) : Except Exn Unit × Publisher :=
  let (result, task) := p.task.stop answers.task
  (result, { p with task := task })

/-- `_TokenRefreshLoop.stop`. -/
def stopRefresh (p : Publisher) (answers : StopAnswers) : Except Exn Unit × Publisher :=
  let (result, refresh) := p.refresh.stop answers.refresh
  (result, { p with refresh := refresh })

def stop (p : Publisher) (answers : StopAnswers) : Except Exn Unit × Publisher :=
  match p.kind with
  | .mock => p.stopTask answers
  | .kis =>
      match p.stopRefresh answers with
      | (.error e, p) => (.error e, p)
      | (.ok (), p) => p.stopTask answers

/-- No task that `stop()` awaits raises. -/
def Quiet (p : Publisher) (answers : StopAnswers) : Prop :=
  (p.kind = .kis → ¬p.refresh.Raises answers.refresh) ∧ ¬p.task.Raises answers.task

/-- `stop()` returns, and the tasks are cleared. -/
def StopsCleanly (p : Publisher) (answers : StopAnswers) : Prop :=
  (p.stop answers).1 = .ok () ∧ (p.stop answers).2.task = .unset ∧
    (p.kind = .kis → (p.stop answers).2.refresh = .unset)

end Publisher

/-- `UsPublisher`; the HTTP client is what its `aclose()` does. -/
structure UsPublisher where
  ownsClient : Bool
  httpClient : Option (Except Exn Unit)
  task : TaskStatus
  taskAnswer : TaskEnd

namespace UsPublisher

/-- The client that `stop()` closes. -/
def owned (p : UsPublisher) : Option (Except Exn Unit) :=
  if p.ownsClient then p.httpClient else none

def stop (p : UsPublisher) : Except Exn Unit × UsPublisher :=
  match p.task.stop p.taskAnswer with
  | (.error e, task) => (.error e, { p with task := task })
  | (.ok (), task) =>
      match p.owned with
      | none => (.ok (), { p with task := task })
      | some (.error e) => (.error e, { p with task := task })
      | some (.ok ()) => (.ok (), { p with task := task, httpClient := none })

/-- Neither the task nor the client it owns raises. -/
def Quiet (p : UsPublisher) : Prop :=
  ¬p.task.Raises p.taskAnswer ∧ ∀ closing, p.owned = some closing → closing = .ok ()

/-- `stop()` returns, the task is cleared and the client it owns is closed. -/
def StopsCleanly (p : UsPublisher) : Prop :=
  p.stop.1 = .ok () ∧ p.stop.2.task = .unset ∧ p.stop.2.owned = none

end UsPublisher

/-- `UniversePublisher` keeps its inner publisher after it is stopped. -/
structure UniversePublisher where
  inner : Option UsPublisher

def UniversePublisher.stop (p : UniversePublisher) : Except Exn Unit × UniversePublisher :=
  match p.inner with
  | none => (.ok (), p)
  | some inner => (inner.stop.1, { inner := some inner.stop.2 })

/-! ### The supervisor -/

structure PublisherSupervisor where
  active : Option Publisher
  kisClient : Option KisClient
  watchdog : TaskStatus
  watchdogAnswer : TaskEnd
  activeAnswers : StopAnswers

namespace PublisherSupervisor

/-- `stop()` from the watchdog on. -/
def stopActive (s : PublisherSupervisor) : Except Exn Unit × PublisherSupervisor :=
  match s.active with
  | none => (.ok (), s)
  | some p =>
      match p.stop s.activeAnswers with
      | (.error e, p) => (.error e, { s with active := some p })
      | (.ok (), _) => (.ok (), { s with active := none })

/-- The client is closed and dropped. -/
def closeClient (s : PublisherSupervisor) : PublisherSupervisor := { s with kisClient := none }

def stop (s : PublisherSupervisor) : Except Exn Unit × PublisherSupervisor :=
  match s.watchdog.stop s.watchdogAnswer with
  | (.error e, watchdog) => (.error e, { s with watchdog := watchdog })
  | (.ok (), watchdog) =>
      match stopActive { s with watchdog := watchdog } with
      | (.error e, s) => (.error e, s)
      | (.ok (), s) => (.ok (), s.closeClient)

/-- No task that `stop()` awaits raises. -/
def Quiet (s : PublisherSupervisor) : Prop :=
  ¬s.watchdog.Raises s.watchdogAnswer ∧
    ∀ p, s.active = some p → p.Quiet s.activeAnswers

/-- `stop()` returns, and nothing is left. -/
def StopsCleanly (s : PublisherSupervisor) : Prop :=
  s.stop.1 = .ok () ∧ s.stop.2.watchdog = .unset ∧ s.stop.2.active = none ∧
    s.stop.2.kisClient = none

end PublisherSupervisor

/-! ### The shutdown section -/

/-- The persistence worker with its tasks; the last field is what the final
`insert_batch` does. -/
structure PersistenceTasks (cfg : WorkerConfig) where
  worker : Worker cfg
  tickTask : TaskStatus
  auditTask : TaskStatus
  tickAnswer : TaskEnd
  auditAnswer : TaskEnd
  insertBatch : Except Exn Nat

namespace PersistenceTasks

variable {cfg : WorkerConfig}

/-- The final drain of `stop()`. -/
def drain (w : PersistenceTasks cfg) : Except Exn Unit × PersistenceTasks cfg :=
  if w.worker.buffer.items = [] then (.ok (), w)
  else
    match w.insertBatch with
    | .error e => (.error e, { w with worker := w.worker.clearBuffer })
    | .ok k =>
        (.ok (), { w with
          worker := w.worker.clearBuffer.countInserted w.worker.buffer.items k })

def stop (w : PersistenceTasks cfg) : Except Exn Unit × PersistenceTasks cfg :=
  match w.tickTask.stop w.tickAnswer with
  | (.error e, _) => (.error e, w)
  | (.ok (), tickTask) =>
      match w.auditTask.stop w.auditAnswer with
      | (.error e, _) => (.error e, w)
      | (.ok (), auditTask) => drain { w with tickTask := tickTask, auditTask := auditTask }

/-- Neither a task of the worker nor the insert of a final batch raises. -/
def Quiet (w : PersistenceTasks cfg) : Prop :=
  ¬w.tickTask.Raises w.tickAnswer ∧ ¬w.auditTask.Raises w.auditAnswer ∧
    (w.worker.buffer.items ≠ [] → ∃ k, w.insertBatch = .ok k)

end PersistenceTasks

inductive ShutdownStep
  | usPublisher
  | extraYahooPublisher
  | krxYahooPublisher
  | universePublisher
  | supervisor
  | persistenceWorker
  | redisClient
  | databasePool
deriving DecidableEq

/-- What `lifespan` holds at shutdown; the last two fields are what `close_client` and
`close_pool` do. -/
structure Lifespan (cfg : WorkerConfig) where
  usPublisher : Option UsPublisher
  extraYahooPublisher : Option UsPublisher
  krxYahooPublisher : Option UsPublisher
  universePublisher : Option UniversePublisher
  supervisor : PublisherSupervisor
  persistenceWorker : PersistenceTasks cfg
  closeClient : Except Exn Unit
  closePool : Except Exn Unit

namespace Lifespan

variable {cfg : WorkerConfig}

/-- `if publisher is not None: await publisher.stop()`. -/
def stopStep {α : Type} (step : ShutdownStep) (publisher : Option α)
    (stop : α → Except Exn Unit) : List (ShutdownStep × Except Exn Unit) :=
  publisher.toList.map fun p => (step, stop p)

/-- The publishers and the supervisor. -/
def publisherSteps (l : Lifespan cfg) : List (ShutdownStep × Except Exn Unit) :=
  stopStep .usPublisher l.usPublisher (fun p => p.stop.1) ++
    stopStep .extraYahooPublisher l.extraYahooPublisher (fun p => p.stop.1) ++
    stopStep .krxYahooPublisher l.krxYahooPublisher (fun p => p.stop.1) ++
    stopStep .universePublisher l.universePublisher (fun p => p.stop.1) ++
    [(.supervisor, l.supervisor.stop.1)]

/-- The shutdown section, each step with what it does when it is entered. -/
def shutdown (l : Lifespan cfg) : List (ShutdownStep × Except Exn Unit) :=
  l.publisherSteps ++
    [(.persistenceWorker, l.persistenceWorker.stop.1), (.redisClient, l.closeClient),
      (.databasePool, l.closePool)]

/-- The shutdown goes on to the worker, whose buffer is empty then, to the Redis client and
to the database pool. -/
def Completes (l : Lifespan cfg) : Prop :=
  (.persistenceWorker ∈ reached l.shutdown ∧ l.persistenceWorker.stop.1 = .ok () ∧
      l.persistenceWorker.stop.2.worker.buffer.items = []) ∧
    .redisClient ∈ reached l.shutdown ∧ .databasePool ∈ reached l.shutdown

/-- None of the tasks that are awaited raises, and no call that closes something. -/
structure Quiet (l : Lifespan cfg) : Prop where
  usPublisher : ∀ p, l.usPublisher = some p → p.Quiet
  extraYahooPublisher : ∀ p, l.extraYahooPublisher = some p → p.Quiet
  krxYahooPublisher : ∀ p, l.krxYahooPublisher = some p → p.Quiet
  universePublisher : ∀ p inner, l.universePublisher = some p → p.inner = some inner →
    inner.Quiet
  supervisor : l.supervisor.Quiet
  persistenceWorker : l.persistenceWorker.Quiet
  closeClient : l.closeClient = .ok ()

end Lifespan
/-! ### Either a task raises, or the stop is clean -/

theorem Publisher.stopTask_cases (p : Publisher) (answers : StopAnswers) :
    (p.task.Raises answers.task ∧ ∃ e p', p.stopTask answers = (.error e, p')) ∨
      ¬p.task.Raises answers.task ∧
        p.stopTask answers = (.ok (), { p with task := .unset }) := by
  obtain ⟨hr, e, t, hs⟩ | ⟨hq, hs⟩ := p.task.stop_cases answers.task
  · exact .inl ⟨hr, e, _, by rw [stopTask, hs]⟩
  · exact .inr ⟨hq, by rw [stopTask, hs]⟩

theorem Publisher.stopRefresh_cases (p : Publisher) (answers : StopAnswers) :
    (p.refresh.Raises answers.refresh ∧ ∃ e p', p.stopRefresh answers = (.error e, p')) ∨
      ¬p.refresh.Raises answers.refresh ∧
        p.stopRefresh answers = (.ok (), { p with refresh := .unset }) := by
  obtain ⟨hr, e, t, hs⟩ | ⟨hq, hs⟩ := p.refresh.stop_cases answers.refresh
  · exact .inl ⟨hr, e, _, by rw [stopRefresh, hs]⟩
  · exact .inr ⟨hq, by rw [stopRefresh, hs]⟩

theorem Publisher.stop_mock {p : Publisher} (h : p.kind = .mock) (answers : StopAnswers) :
    p.stop answers = p.stopTask answers := by
  rw [stop, h]

theorem Publisher.stop_kis {p : Publisher} (h : p.kind = .kis) (answers : StopAnswers) :
    p.stop answers =
      match p.stopRefresh answers with
      | (.error e, p) => (.error e, p)
      | (.ok (), p) => p.stopTask answers := by
  rw [stop, h]

theorem Publisher.stop_cases (p : Publisher) (answers : StopAnswers) :
    (¬p.Quiet answers ∧ ∃ e p', p.stop answers = (.error e, p')) ∨
      p.Quiet answers ∧ p.StopsCleanly answers := by
  cases hkind : p.kind with
  | mock =>
      have hnot : p.kind ≠ .kis := hkind ▸ nofun
      rw [StopsCleanly, stop_mock hkind]
      obtain ⟨hr, e, p', hs⟩ | ⟨hq, hs⟩ := p.stopTask_cases answers
      · exact .inl ⟨fun h => h.2 hr, e, p', hs⟩
      · refine .inr ⟨⟨fun h => absurd h hnot, hq⟩, ?_⟩
        rw [hs]
        exact ⟨rfl, rfl, fun h => absurd h hnot⟩
  | kis =>
      rw [StopsCleanly, stop_kis hkind]
      obtain ⟨hr, e, p', hs⟩ | ⟨hq, hs⟩ := p.stopRefresh_cases answers
      · exact .inl ⟨fun h => h.1 hkind hr, e, p', by rw [hs]⟩
      rw [hs]
      dsimp only
      obtain ⟨hr, e, p', hs'⟩ | ⟨hq', hs'⟩ :=
        Publisher.stopTask_cases { p with refresh := .unset } answers
      · exact .inl ⟨fun h => h.2 hr, e, p', hs'⟩
      · refine .inr ⟨⟨fun _ => hq, hq'⟩, ?_⟩
        rw [hs']
        exact ⟨rfl, rfl, fun _ => rfl⟩

theorem UsPublisher.stop_cases (p : UsPublisher) :
    (¬p.Quiet ∧ ∃ e p', p.stop = (.error e, p')) ∨ p.Quiet ∧ p.StopsCleanly := by
  obtain ⟨hr, e, t, hs⟩ | ⟨hq, hs⟩ := p.task.stop_cases p.taskAnswer
  · exact .inl ⟨fun h => h.1 hr, e, _, by rw [stop, hs]⟩
  rw [StopsCleanly, stop, hs]
  cases ho : p.owned with
  | none => exact .inr ⟨⟨hq, ho ▸ nofun⟩, rfl, rfl, ho⟩
  | some closing =>
      cases closing with
      | error e => exact .inl ⟨fun h => (nomatch h.2 _ ho), e, _, rfl⟩
      | ok u =>
          refine .inr ⟨⟨hq, fun closing h => ?_⟩, rfl, rfl, ite_self none⟩
          exact (Option.some.inj (ho.symm.trans h)).symm

theorem PublisherSupervisor.stopActive_cases (s : PublisherSupervisor) :
    ((∃ p, s.active = some p ∧ ¬p.Quiet s.activeAnswers) ∧
        ∃ e s', s.stopActive = (.error e, s')) ∨
      (∀ p, s.active = some p → p.Quiet s.activeAnswers) ∧
        s.stopActive = (.ok (), { s with active := none }) := by
  obtain ⟨active, kisClient, watchdog, watchdogAnswer, answers⟩ := s
  cases active with
  | none =>
      refine .inr ⟨?_, rfl⟩
      intro p h
      cases h
  | some p =>
      dsimp only [stopActive]
      obtain ⟨hr, e, p', hs⟩ | ⟨hq, hs⟩ := p.stop_cases answers
      · rw [hs]
        exact .inl ⟨⟨p, rfl, hr⟩, e, _, rfl⟩
      · have hstop : p.stop answers = (.ok (), (p.stop answers).2) := Prod.ext hs.1 rfl
        rw [hstop]
        exact .inr ⟨fun q h => Option.some.inj h ▸ hq, rfl⟩

theorem PublisherSupervisor.stop_cases (s : PublisherSupervisor) :
    (¬s.Quiet ∧ ∃ e s', s.stop = (.error e, s')) ∨ s.Quiet ∧ s.StopsCleanly := by
  obtain ⟨hr, e, t, hs⟩ | ⟨hq, hs⟩ := s.watchdog.stop_cases s.watchdogAnswer
  · exact .inl ⟨fun h => h.1 hr, e, _, by rw [stop, hs]⟩
  rw [StopsCleanly, stop, hs]
  dsimp only
  obtain ⟨⟨p, hp, hr⟩, e, s', ha⟩ | ⟨hactive, ha⟩ :=
    PublisherSupervisor.stopActive_cases { s with watchdog := .unset }
  · exact .inl ⟨fun h => hr (h.2 p hp), e, s', by rw [ha]⟩
  · rw [ha]
    exact .inr ⟨⟨hq, hactive⟩, rfl, rfl, rfl, rfl⟩

theorem PersistenceTasks.drain_cases {cfg : WorkerConfig} (w : PersistenceTasks cfg) :
    (w.worker.buffer.items ≠ [] ∧ ∃ e, w.insertBatch = .error e ∧ w.drain.1 = .error e) ∨
      (w.worker.buffer.items ≠ [] → ∃ k, w.insertBatch = .ok k) ∧
        w.drain.1 = .ok () ∧ w.drain.2.worker.buffer.items = [] := by
  rw [drain]
  by_cases hb : w.worker.buffer.items = []
  · rw [if_pos hb]
    exact .inr ⟨fun h => absurd hb h, rfl, hb⟩
  · rw [if_neg hb]
    cases w.insertBatch with
    | error e => exact .inl ⟨hb, e, rfl, rfl⟩
    | ok k => exact .inr ⟨fun _ => ⟨k, rfl⟩, rfl, rfl⟩

theorem PersistenceTasks.stop_cases {cfg : WorkerConfig} (w : PersistenceTasks cfg) :
    (¬w.Quiet ∧ ∃ e, w.stop.1 = .error e) ∨
      w.Quiet ∧ w.stop.1 = .ok () ∧ w.stop.2.worker.buffer.items = [] := by
  rw [Quiet, stop]
  obtain ⟨hr, e, t, hs⟩ | ⟨hq, hs⟩ := w.tickTask.stop_cases w.tickAnswer
  · exact .inl ⟨fun h => h.1 hr, e, by rw [hs]⟩
  rw [hs]
  dsimp only
  obtain ⟨hr, e, t, hs'⟩ | ⟨hq', hs'⟩ := w.auditTask.stop_cases w.auditAnswer
  · exact .inl ⟨fun h => h.2.1 hr, e, by rw [hs']⟩
  rw [hs']
  obtain ⟨hb, e, hi, he⟩ | ⟨hi, hok, hb⟩ :=
    PersistenceTasks.drain_cases { w with tickTask := .unset, auditTask := .unset }
  · refine .inl ⟨fun h => ?_, e, he⟩
    obtain ⟨k, hk⟩ := h.2.2 hb
    cases hk.symm.trans hi
  · exact .inr ⟨⟨hq, hq', hi⟩, hok, hb⟩

/-! ### The shutdown section -/

theorem UsPublisher.stop_ok_iff (p : UsPublisher) : p.stop.1 = .ok () ↔ p.Quiet := by
  obtain ⟨hr, e, p', he⟩ | ⟨hq, hs⟩ := p.stop_cases
  · exact iff_of_false (fun h => by rw [he] at h; cases h) hr
  · exact iff_of_true hs.1 hq

theorem PublisherSupervisor.stop_ok_iff (s : PublisherSupervisor) :
    s.stop.1 = .ok () ↔ s.Quiet := by
  obtain ⟨hr, e, s', he⟩ | ⟨hq, hs⟩ := s.stop_cases
  · exact iff_of_false (fun h => by rw [he] at h; cases h) hr
  · exact iff_of_true hs.1 hq

theorem PersistenceTasks.stop_ok_iff {cfg : WorkerConfig} (w : PersistenceTasks cfg) :
    w.stop.1 = .ok () ↔ w.Quiet := by
  obtain ⟨hr, e, he⟩ | ⟨hq, hs, -⟩ := w.stop_cases
  · exact iff_of_false (fun h => nomatch he.symm.trans h) hr
  · exact iff_of_true hs hq

theorem UniversePublisher.stop_ok_iff (p : UniversePublisher) :
    p.stop.1 = .ok () ↔ ∀ inner, p.inner = some inner → inner.Quiet := by
  obtain ⟨inner⟩ := p
  cases inner with
  | none =>
      refine iff_of_true rfl ?_
      intro inner h
      cases h
  | some inner =>
      rw [stop, inner.stop_ok_iff]
      constructor
      · intro h q hq
        cases hq
        exact h
      · intro h
        exact h inner rfl

namespace Lifespan

variable {cfg : WorkerConfig}

theorem stopStep_ok_iff {α : Type} (step : ShutdownStep) (publisher : Option α)
    (stop : α → Except Exn Unit) :
    (∀ entry ∈ stopStep step publisher stop, entry.2 = .ok ()) ↔
      ∀ p, publisher = some p → stop p = .ok () := by
  cases publisher with
  | none => simp [stopStep]
  | some p => simp [stopStep]

theorem publisherSteps_ok_iff (l : Lifespan cfg) :
    (∀ entry ∈ l.publisherSteps, entry.2 = .ok ()) ↔
      (((((∀ p, l.usPublisher = some p → p.Quiet) ∧
        ∀ p, l.extraYahooPublisher = some p → p.Quiet) ∧
        ∀ p, l.krxYahooPublisher = some p → p.Quiet) ∧
        ∀ p, l.universePublisher = some p → ∀ inner, p.inner = some inner → inner.Quiet) ∧
        l.supervisor.Quiet) := by
  simp only [publisherSteps, List.forall_mem_append, stopStep_ok_iff, UsPublisher.stop_ok_iff,
    UniversePublisher.stop_ok_iff, List.forall_mem_singleton, PublisherSupervisor.stop_ok_iff]

theorem publisherSteps_step (l : Lifespan cfg) {step : ShutdownStep}
    (h : step ∈ [.persistenceWorker, .redisClient, .databasePool]) :
    ∀ entry ∈ l.publisherSteps, entry.1 ≠ step := by
  intro entry hentry
  have hstep : entry.1 ∈ [ShutdownStep.usPublisher, .extraYahooPublisher, .krxYahooPublisher,
      .universePublisher, .supervisor] := by
    simp only [publisherSteps, stopStep, List.mem_append, List.mem_map, List.mem_singleton]
      at hentry
    obtain (((⟨_, _, rfl⟩ | ⟨_, _, rfl⟩) | ⟨_, _, rfl⟩) | ⟨_, _, rfl⟩) | rfl := hentry <;> simp
  have hdistinct : ∀ a ∈ [ShutdownStep.usPublisher, .extraYahooPublisher, .krxYahooPublisher,
      .universePublisher, .supervisor],
      ∀ b ∈ [ShutdownStep.persistenceWorker, .redisClient, .databasePool], a ≠ b := by
    decide
  exact hdistinct _ hstep _ h

/-- The pool is reached exactly when everything before it returns. -/
theorem pool_reached_iff (l : Lifespan cfg) :
    .databasePool ∈ reached l.shutdown ↔
      (∀ entry ∈ l.publisherSteps, entry.2 = .ok ()) ∧ l.persistenceWorker.stop.1 = .ok () ∧
        l.closeClient = .ok () := by
  have hsplit : l.shutdown = (l.publisherSteps ++
      [(.persistenceWorker, l.persistenceWorker.stop.1), (.redisClient, l.closeClient)]) ++
      (.databasePool, l.closePool) :: [] := by
    rw [shutdown, List.append_assoc]
    rfl
  rw [hsplit, mem_reached_iff]
  · rw [List.forall_mem_append, List.forall_mem_cons, List.forall_mem_singleton]
  · intro entry hentry
    rw [List.mem_append] at hentry
    cases hentry with
    | inl h => exact l.publisherSteps_step (by decide) entry h
    | inr h =>
        simp only [List.mem_cons, List.not_mem_nil, or_false] at h
        obtain rfl | rfl := h
        · exact nofun
        · exact nofun

theorem completes_iff (l : Lifespan cfg) : l.Completes ↔ l.Quiet := by
  constructor
  · intro h
    obtain ⟨hsteps, hworker, hclient⟩ := l.pool_reached_iff.mp h.2.2
    obtain ⟨⟨⟨⟨hus, hextra⟩, hkrx⟩, huniverse⟩, hsupervisor⟩ := l.publisherSteps_ok_iff.mp hsteps
    exact ⟨hus, hextra, hkrx, fun p inner hp => huniverse p hp inner, hsupervisor,
      l.persistenceWorker.stop_ok_iff.mp hworker, hclient⟩
  · intro h
    have hsteps := l.publisherSteps_ok_iff.mpr
      ⟨⟨⟨⟨h.usPublisher, h.extraYahooPublisher⟩, h.krxYahooPublisher⟩,
        fun p hp inner => h.universePublisher p inner hp⟩, h.supervisor⟩
    obtain ⟨hr, -⟩ | ⟨-, hok, hdrained⟩ := l.persistenceWorker.stop_cases
    · exact absurd h.persistenceWorker hr
    have hpool := l.pool_reached_iff.mpr ⟨hsteps, hok, h.closeClient⟩
    have hworker : .persistenceWorker ∈ reached l.shutdown :=
      (mem_reached_iff (l.publisherSteps_step (by decide))).mpr hsteps
    have hclient : .redisClient ∈ reached l.shutdown := by
      have hsplit : l.shutdown = (l.publisherSteps ++
          [(.persistenceWorker, l.persistenceWorker.stop.1)]) ++
          (.redisClient, l.closeClient) :: [(.databasePool, l.closePool)] := by
        rw [shutdown, List.append_assoc]
        rfl
      rw [hsplit, mem_reached_iff]
      · simp only [List.forall_mem_append, List.forall_mem_singleton]
        exact ⟨hsteps, hok⟩
      · intro entry hentry
        rw [List.mem_append] at hentry
        cases hentry with
        | inl h => exact l.publisherSteps_step (by decide) entry h
        | inr h =>
            rw [List.mem_singleton.mp h]
            exact nofun
    exact ⟨⟨hworker, hok, hdrained⟩, hclient, hpool⟩

end Lifespan

/-- Every `stop()` returns with its task cleared and its client closed, and the shutdown
goes on to its end, exactly when nothing that is awaited raises. -/
theorem shutdown_completes_iff (p : Publisher) (answers : StopAnswers) (us : UsPublisher)
    (s : PublisherSupervisor) {cfg : WorkerConfig} (l : Lifespan cfg) :
    (p.StopsCleanly answers ↔ p.Quiet answers) ∧ (us.StopsCleanly ↔ us.Quiet) ∧
      (s.StopsCleanly ↔ s.Quiet) ∧ (l.Completes ↔ l.Quiet) := by
  refine ⟨?_, ?_, ?_, l.completes_iff⟩
  · obtain ⟨hr, e, p', he⟩ | ⟨hq, hs⟩ := p.stop_cases answers
    · exact iff_of_false (fun h => nomatch (congrArg Prod.fst he).symm.trans h.1) hr
    · exact iff_of_true hs hq
  · obtain ⟨hr, -⟩ | ⟨hq, hs⟩ := us.stop_cases
    · exact iff_of_false (fun h => hr (us.stop_ok_iff.mp h.1)) hr
    · exact iff_of_true hs hq
  · obtain ⟨hr, -⟩ | ⟨hq, hs⟩ := s.stop_cases
    · exact iff_of_false (fun h => hr (s.stop_ok_iff.mp h.1)) hr
    · exact iff_of_true hs hq

/-- Its task raised when Redis refused a publish. -/
def crashedPublisher : UsPublisher where
  ownsClient := true
  httpClient := some (.ok ())
  task := .ended (.raised ⟨.named (text "ConnectionError"), []⟩)
  taskAnswer := .cancelled

def crashedLifespan : Lifespan .default where
  usPublisher := some crashedPublisher
  extraYahooPublisher := none
  krxYahooPublisher := none
  universePublisher := none
  supervisor := ⟨none, none, .unset, .cancelled, ⟨.cancelled, .cancelled⟩⟩
  persistenceWorker := ⟨.init, .running, .running, .cancelled, .cancelled, .ok 0⟩
  closeClient := .ok ()
  closePool := .ok ()

theorem crashedPublisher_stops_shutdown :
    ¬crashedPublisher.StopsCleanly ∧ reached crashedLifespan.shutdown = [.usPublisher] ∧
      ¬crashedLifespan.Completes := by
  have hreached : reached crashedLifespan.shutdown = [.usPublisher] := rfl
  refine ⟨fun h => (nomatch h.1), hreached, fun h => ?_⟩
  have hpool := h.2.2
  rw [hreached] at hpool
  exact absurd hpool (by decide)

end NexusBackend
