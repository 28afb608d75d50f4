import NexusBackend.Library.Transition
import NexusBackend.Publishers.Lifecycle

/-!
`PublisherSupervisor` after `start()`: its publishers, its watchdog and `stop()`, one await
at a time.

What follows an await runs without interruption to the next one; an await of a task that
has ended does not suspend. A task may end at any moment and in any way. A cancelled
watchdog ends at its sleep; one that awaits a task passes the cancellation on to it and
catches the result; one that awaits the closing of the client may end there or go on. Of
two calls of `stop()`, the second comes after the first has ended. Time is not covered
here.
-/
namespace NexusBackend

open Python Transition

/-! ### Stopping a publisher, await by await -/

namespace Publisher

def tryStopTask (p : Publisher) : Option (Except Exn Unit × Publisher) :=
  p.task.release.map fun (result, task) => (result, { p with task := task })

/-- `stop()` as far as it comes: nothing while a task that it has cancelled still runs. -/
def tryStop (p : Publisher) : Option (Except Exn Unit × Publisher) :=
  match p.kind with
  | .mock => p.tryStopTask
  | .kis =>
      match p.refresh.release with
      | none => none
      | some (.error e, refresh) => some (.error e, { p with refresh := refresh })
      | some (.ok (), refresh) => tryStopTask { p with refresh := refresh }

theorem tryStopTask_eq_stopTask {p : Publisher} {r : Except Exn Unit × Publisher}
    (h : p.tryStopTask = some r) (answers : StopAnswers) : p.stopTask answers = r := by
  obtain ⟨released, hr, rfl⟩ := Option.map_eq_some_iff.mp h
  rw [stopTask, TaskStatus.release_eq_stop hr]

/-- Where `stop()` does not have to wait, it is the whole `stop()`. -/
theorem tryStop_eq_stop {p : Publisher} {r : Except Exn Unit × Publisher}
    (h : p.tryStop = some r) (answers : StopAnswers) : p.stop answers = r := by
  rw [tryStop] at h
  cases hkind : p.kind with
  | mock =>
      rw [hkind] at h
      rw [stop_mock hkind]
      exact tryStopTask_eq_stopTask h answers
  | kis =>
      rw [hkind] at h
      dsimp only at h
      rw [stop_kis hkind, stopRefresh]
      cases hrel : p.refresh.release with
      | none =>
          rw [hrel] at h
          cases h
      | some released =>
          obtain ⟨result, refresh⟩ := released
          rw [hrel] at h
          rw [TaskStatus.release_eq_stop hrel]
          cases result with
          | error e =>
              dsimp only at h ⊢
              rw [hkind]
              exact Option.some.inj h
          | ok u =>
              dsimp only at h ⊢
              rw [hkind]
              exact tryStopTask_eq_stopTask h answers

end Publisher

/-! ### The supervisor -/

/-- Where the watchdog stands; at the closing of the client, whether it was cancelled there. -/
inductive Watchdog
  | unset
  | sleeping
  | stopping
  | closing (cancelled : Bool)
  | ended
deriving DecidableEq

/-- Where the last call of `stop()` stands. -/
inductive StopCall
  | idle
  | awaitingWatchdog
  | stopping
  | closing
  | returned
  | raised (e : Exn)
deriving DecidableEq

/-- The publishers are all that were ever started; the active one is given by its place. -/
structure Supervisor where
  publishers : List Publisher := []
  active : Option Nat := none
  kisClient : Bool := false
  watchdog : Watchdog := .unset
  stopCall : StopCall := .idle
  failoverCount : Nat := 0
deriving DecidableEq

/-- A task ends, the watchdog wakes or goes on, `stop()` is called or goes on. -/
inductive SupervisorLabel
  | taskEnds (i : Nat) (how : TaskEnd)
  | refreshEnds (i : Nat) (how : TaskEnd)
  | watchdogWakes
  | watchdogResumes
  | clientClosed
  | closingCancelled
  | callStop
  | stopResumes
deriving DecidableEq

namespace Supervisor

def activePublisher? (s : Supervisor) : Option Publisher :=
  s.active.bind fun i => s.publishers[i]?

/-- `active_kind`. -/
def activeKind? (s : Supervisor) : Option PublisherKind := s.activePublisher?.map Publisher.kind

def setPublisher (s : Supervisor) (i : Nat) (p : Publisher) : Supervisor :=
  { s with publishers := s.publishers.set i p }

def setActive (s : Supervisor) (p : Publisher) : Supervisor :=
  match s.active with
  | none => s
  | some i => s.setPublisher i p

/-- `_start_mock`. -/
def startMock (s : Supervisor) : Supervisor :=
  { s with
    publishers := s.publishers ++ [{ kind := .mock, task := .running }]
    active := some s.publishers.length }

/-- `start()`: whether there are credentials, whether the KIS publisher comes up, and whether
this is a development environment. -/
def start (hasKisCreds kisOk development : Bool) : Supervisor :=
  if hasKisCreds && kisOk then
    { publishers := [{ kind := .kis, refresh := .running, task := .running }]
      active := some 0
      kisClient := true
      watchdog := .sleeping }
  else if development then startMock {}
  else {}

/-! ### The watchdog -/

/-- The end of `_failover_to_mock`. -/
def finishFailover (s : Supervisor) : Supervisor := { s.startMock with watchdog := .ended }

def closeKis (s : Supervisor) : Supervisor :=
  if s.kisClient then { s with watchdog := .closing false } else s.finishFailover

/-- `_failover_to_mock` from the stop of the active publisher on; what it raises is caught. -/
def failOver (s : Supervisor) : Supervisor :=
  match s.activePublisher? with
  | none => s.closeKis
  | some p =>
      match p.tryStop with
      | none => { s with watchdog := .stopping }
      | some (_, p') => (s.setActive p').closeKis

/-- One turn of `_watch` after its sleep. -/
def watch (s : Supervisor) : Supervisor :=
  match s.activePublisher? with
  | none => s
  | some p =>
      if p.isRunning then s else failOver { s with failoverCount := s.failoverCount + 1 }

/-! ### stop() -/

def stopClient (s : Supervisor) : Supervisor :=
  { s with stopCall := if s.kisClient then .closing else .returned }

/-- `stop()` from the stop of the active publisher on. -/
def stopActive (s : Supervisor) : Supervisor :=
  match s.activePublisher? with
  | none => s.stopClient
  | some p =>
      match p.tryStop with
      | none => { s with stopCall := .stopping }
      | some (.error e, p') => { s.setActive p' with stopCall := .raised e }
      | some (.ok (), p') => stopClient { s.setActive p' with active := none }

/-- `stop()` behind its await of the watchdog. -/
def leaveWatchdog (s : Supervisor) : Supervisor := stopActive { s with watchdog := .unset }

def callStop (s : Supervisor) : Supervisor :=
  match s.watchdog with
  | .unset => s.stopActive
  | .ended => s.leaveWatchdog
  | .sleeping => { s with watchdog := .ended, stopCall := .awaitingWatchdog }
  | .stopping => { s with stopCall := .awaitingWatchdog }
  | .closing _ => { s with watchdog := .closing true, stopCall := .awaitingWatchdog }

/-- No call of `stop()` is under way. -/
def stoppable (s : Supervisor) : Bool :=
  match s.stopCall with
  | .idle | .returned | .raised _ => true
  | _ => false

/-! ### Steps -/

def endTask (s : Supervisor) (i : Nat) (how : TaskEnd) : Option Supervisor :=
  match s.publishers[i]? with
  | some p =>
      if p.task = .running then some (s.setPublisher i { p with task := .ended how }) else none
  | none => none

def endRefresh (s : Supervisor) (i : Nat) (how : TaskEnd) : Option Supervisor :=
  match s.publishers[i]? with
  | some p =>
      if p.refresh = .running then some (s.setPublisher i { p with refresh := .ended how })
      else none
  | none => none

/-- The active publisher can be stopped without a further wait. -/
def activeReady (s : Supervisor) : Bool :=
  match s.activePublisher? with
  | none => true
  | some p => p.tryStop.isSome

def step (s : Supervisor) : SupervisorLabel → Option Supervisor
  | .taskEnds i how => s.endTask i how
  | .refreshEnds i how => s.endRefresh i how
  | .watchdogWakes => if s.watchdog = .sleeping then some s.watch else none
  | .watchdogResumes =>
      if s.watchdog = .stopping ∧ s.activeReady then some s.failOver else none
  | .clientClosed =>
      match s.watchdog with
      | .closing _ => some (finishFailover { s with kisClient := false })
      | _ => none
  | .closingCancelled =>
      if s.watchdog = .closing true then some { s with watchdog := .ended } else none
  | .callStop => if s.stoppable then some s.callStop else none
  | .stopResumes =>
      match s.stopCall with
      | .awaitingWatchdog => if s.watchdog = .ended then some s.leaveWatchdog else none
      | .stopping => if s.activeReady then some s.stopActive else none
      | .closing => some { s with kisClient := false, stopCall := .returned }
      | _ => none

def machine : Machine Supervisor SupervisorLabel Unit where
  step s l := (s.step l).map fun s' => (s', [])

/-- A KIS publisher dies and the watchdog replaces it. -/
example : ([.taskEnds 0 .returned, .watchdogWakes, .refreshEnds 0 .cancelled, .watchdogResumes,
    .clientClosed].foldlM step (start true true false)).map
      (fun s => (s.activeKind?, s.kisClient, s.failoverCount)) = some (some .mock, false, 1) := by
  decide

/-! ### What holds in every state -/

def kinds (s : Supervisor) : List PublisherKind := s.publishers.map Publisher.kind

/-- One publisher at a time, one fail-over at most, never back to KIS; behind a fail-over the
mock is active without a KIS client until `stop()`, and behind `stop()` nothing runs. -/
structure Exclusive (s : Supervisor) : Prop where
  oneRunning : (s.publishers.filter Publisher.isRunning).length ≤ 1
  oneFailover : s.failoverCount ≤ 1
  oneMock : s.kinds.count .mock ≤ 1
  neverReversed : .mock ∈ s.kinds → s.activeKind? ≠ some .kis ∧
    ∀ p ∈ s.publishers, p.kind = .kis → p.isRunning = false
  failedOver : .mock ∈ s.kinds → 1 ≤ s.failoverCount → s.stopCall = .idle →
    s.activeKind? = some .mock ∧ s.kisClient = false
  stopped : s.stopCall = .returned → ∀ p ∈ s.publishers, p.isRunning = false

/-! ### The invariant -/

end Supervisor

/-- A fail-over is under way. -/
def Watchdog.failing : Watchdog → Bool
  | stopping | closing _ => true
  | _ => false

/-- The watchdog sleeps or a fail-over is under way. -/
def Watchdog.armed : Watchdog → Bool
  | unset | ended => false
  | _ => true

/-- `stop()` is behind its await of the watchdog. -/
def StopCall.pastWatchdog : StopCall → Bool
  | idle | awaitingWatchdog => false
  | _ => true

/-- `stop()` is behind the stop of the active publisher. -/
def StopCall.pastActive : StopCall → Bool
  | closing | returned => true
  | _ => false

theorem Watchdog.armed_of_failing {w : Watchdog} (h : w.failing = true) : w.armed = true := by
  cases w with
  | unset | ended => cases h
  | sleeping | stopping | closing _ => rfl

theorem StopCall.pastWatchdog_of_pastActive {c : StopCall} (h : c.pastActive = true) :
    c.pastWatchdog = true := by
  cases c with
  | idle | awaitingWatchdog => cases h
  | stopping | closing | returned | raised _ => rfl

namespace Supervisor

/-- What every step keeps. -/
structure Sound (s : Supervisor) : Prop where
  runningActive : ∀ i p, s.publishers[i]? = some p → p.isRunning = true → s.active = some i
  activeIn : ∀ i, s.active = some i → i < s.publishers.length
  kisOnly : s.watchdog.armed = true → .mock ∉ s.kinds
  failing : s.watchdog.failing = true → ∀ p ∈ s.publishers, p.isRunning = false
  oneFailover : s.failoverCount ≤ 1
  sleeping : s.watchdog = .sleeping → s.failoverCount = 0
  oneMock : s.kinds.count .mock ≤ 1
  mockActive : .mock ∈ s.kinds → s.activeKind? ≠ some .kis
  mockReplaces : .mock ∈ s.kinds → s.stopCall = .idle →
    s.active ≠ none ∧ (1 ≤ s.failoverCount → s.kisClient = false)
  pastWatchdog : s.stopCall.pastWatchdog = true → s.watchdog = .unset
  pastActive : s.stopCall.pastActive = true → s.active = none

variable {s : Supervisor}

theorem activePublisher?_of_active {i : Nat} {p : Publisher} (hi : s.active = some i)
    (hp : s.publishers[i]? = some p) : s.activePublisher? = some p := by
  rw [activePublisher?, hi]
  exact hp

theorem activeKind?_of_active {i : Nat} {p : Publisher} (hi : s.active = some i)
    (hp : s.publishers[i]? = some p) : s.activeKind? = some p.kind := by
  rw [activeKind?, activePublisher?_of_active hi hp]
  rfl

/-- A running publisher is the active one. -/
theorem Sound.active_of_running (h : s.Sound) {p : Publisher} (hp : p ∈ s.publishers)
    (hr : p.isRunning = true) : s.activePublisher? = some p := by
  obtain ⟨i, hi⟩ := List.getElem?_of_mem hp
  exact activePublisher?_of_active (h.runningActive i p hi hr) hi

/-- Where the active publisher does not run, none does. -/
theorem Sound.none_running (h : s.Sound)
    (hactive : ∀ p, s.activePublisher? = some p → p.isRunning = false) :
    ∀ p ∈ s.publishers, p.isRunning = false := by
  intro p hp
  cases hr : p.isRunning with
  | false => rfl
  | true =>
      rw [hactive p (h.active_of_running hp hr)] at hr
      cases hr

theorem filter_length_le_one {α : Type*} {l : List α} {f : α → Bool}
    (h : ∀ (i j : Nat) (a b : α), l[i]? = some a → l[j]? = some b → f a = true → f b = true →
      i = j) : (l.filter f).length ≤ 1 := by
  induction l with
  | nil => exact Nat.zero_le 1
  | cons a l ih =>
      cases ha : f a with
      | false =>
          rw [List.filter_cons_of_neg (by simp [ha])]
          apply ih
          intro i j b c hi hj hb hc
          exact Nat.succ_injective (h (i + 1) (j + 1) b c hi hj hb hc)
      | true =>
          have hnil : l.filter f = [] := by
            apply List.filter_eq_nil_iff.mpr
            intro b hb hfb
            obtain ⟨j, hj⟩ := List.getElem?_of_mem hb
            cases h 0 (j + 1) a b rfl hj ha hfb
          rw [List.filter_cons_of_pos ha, hnil]
          exact Nat.le_refl 1

theorem Sound.exclusive (h : s.Sound) : s.Exclusive where
  oneRunning := by
    apply filter_length_le_one
    intro i j a b hi hj ha hb
    have hai := h.runningActive i a hi ha
    have hbj := h.runningActive j b hj hb
    exact Option.some.inj (hai.symm.trans hbj)
  oneFailover := h.oneFailover
  oneMock := h.oneMock
  neverReversed := by
    intro hmock
    refine ⟨h.mockActive hmock, ?_⟩
    intro p hp hk
    cases hr : p.isRunning with
    | false => rfl
    | true =>
        refine absurd ?_ (h.mockActive hmock)
        rw [activeKind?, h.active_of_running hp hr, ← hk]
        rfl
  failedOver := by
    intro hmock hcount hidle
    obtain ⟨hactive, hclient⟩ := h.mockReplaces hmock hidle
    obtain ⟨i, hi⟩ := Option.ne_none_iff_exists'.mp hactive
    have hlt := h.activeIn i hi
    have hkind := activeKind?_of_active hi (List.getElem?_eq_getElem hlt)
    refine ⟨?_, hclient hcount⟩
    have hnot := h.mockActive hmock
    rw [hkind] at hnot ⊢
    cases hk : s.publishers[i].kind with
    | kis => rw [hk] at hnot; exact absurd rfl hnot
    | mock => rfl
  stopped := by
    intro hstop
    have hnone := h.pastActive (by rw [hstop]; rfl)
    apply h.none_running
    intro p hp
    rw [activePublisher?, hnone] at hp
    cases hp

/-! ### Changes of one publisher -/

/-- A publisher keeps its kind and does not begin to run. -/
structure Settles (p q : Publisher) : Prop where
  kind : q.kind = p.kind
  stays : q.isRunning = true → p.isRunning = true

theorem setPublisher_getElem? {i j : Nat} {q r : Publisher}
    (h : (s.setPublisher i q).publishers[j]? = some r) :
    (j = i ∧ r = q) ∨ s.publishers[j]? = some r := by
  rw [setPublisher, List.getElem?_set] at h
  by_cases hij : i = j
  · rw [if_pos hij] at h
    by_cases hlt : j < s.publishers.length
    · rw [if_pos (hij ▸ hlt)] at h
      exact .inl ⟨hij.symm, (Option.some.inj h).symm⟩
    · rw [if_neg (hij ▸ hlt)] at h
      cases h
  · rw [if_neg hij] at h
    exact .inr h

theorem setPublisher_kinds {i : Nat} {p q : Publisher} (hp : s.publishers[i]? = some p)
    (hq : q.kind = p.kind) : (s.setPublisher i q).kinds = s.kinds := by
  obtain ⟨hlt, rfl⟩ := List.getElem?_eq_some_iff.mp hp
  have hlt' : i < s.kinds.length := by
    rw [kinds, List.length_map]
    exact hlt
  have hself := List.set_getElem_self hlt'
  have hkind : s.kinds[i] = q.kind := by
    rw [hq]
    exact List.getElem_map _
  rw [kinds, setPublisher, List.map_set, ← hkind]
  exact hself

theorem activeKind?_eq_kinds (s : Supervisor) :
    s.activeKind? = s.active.bind fun i => s.kinds[i]? := by
  rw [activeKind?, activePublisher?]
  cases s.active with
  | none => rfl
  | some i => exact (List.getElem?_map).symm

theorem Sound.setPublisher (h : s.Sound) {i : Nat} {p q : Publisher}
    (hp : s.publishers[i]? = some p) (hq : Settles p q) : (s.setPublisher i q).Sound := by
  have hkinds := setPublisher_kinds hp hq.kind
  have hactive : (s.setPublisher i q).activeKind? = s.activeKind? := by
    rw [activeKind?_eq_kinds, activeKind?_eq_kinds, hkinds]
    rfl
  refine {
    runningActive := ?_
    activeIn := ?_
    kisOnly := fun ha => hkinds ▸ h.kisOnly ha
    failing := ?_
    oneFailover := h.oneFailover
    sleeping := h.sleeping
    oneMock := hkinds ▸ h.oneMock
    mockActive := fun hm => hactive ▸ h.mockActive (hkinds ▸ hm)
    mockReplaces := fun hm => h.mockReplaces (hkinds ▸ hm)
    pastWatchdog := h.pastWatchdog
    pastActive := h.pastActive }
  · intro j r hj hr
    obtain ⟨rfl, rfl⟩ | hj := setPublisher_getElem? hj
    · exact h.runningActive j p hp (hq.stays hr)
    · exact h.runningActive j r hj hr
  · intro j hj
    rw [Supervisor.setPublisher, List.length_set]
    exact h.activeIn j hj
  · intro hf r hr
    obtain ⟨j, hj⟩ := List.getElem?_of_mem hr
    obtain ⟨rfl, rfl⟩ | hj := setPublisher_getElem? hj
    · have hpf := h.failing hf p (List.mem_of_getElem? hp)
      cases hrun : r.isRunning with
      | false => rfl
      | true => exact (hpf.symm.trans (hq.stays hrun)).symm
    · exact h.failing hf r (List.mem_of_getElem? hj)

theorem tryStopTask_settles {p q : Publisher} {result : Except Exn Unit}
    (h : p.tryStopTask = some (result, q)) : Settles p q ∧ q.isRunning = false := by
  obtain ⟨r, hr, he⟩ := Option.map_eq_some_iff.mp h
  obtain ⟨-, hq⟩ := Prod.mk.inj he
  have hidle := (TaskStatus.release_some hr).2
  subst hq
  refine ⟨⟨rfl, fun hrun => ?_⟩, hidle⟩
  cases hidle.symm.trans hrun

/-- A publisher whose stop has returned is not running. -/
theorem tryStop_settles {p q : Publisher} {result : Except Exn Unit}
    (h : p.tryStop = some (result, q)) :
    Settles p q ∧ (result = .ok () → q.isRunning = false) := by
  rw [Publisher.tryStop] at h
  cases hkind : p.kind with
  | mock =>
      rw [hkind] at h
      obtain ⟨hq, hidle⟩ := tryStopTask_settles h
      exact ⟨hq, fun _ => hidle⟩
  | kis =>
      rw [hkind] at h
      dsimp only at h
      cases hrel : p.refresh.release with
      | none =>
          rw [hrel] at h
          cases h
      | some r =>
          obtain ⟨released, refresh⟩ := r
          rw [hrel] at h
          cases released with
          | error e =>
              cases h
              exact ⟨⟨hkind.symm, id⟩, nofun⟩
          | ok u =>
              obtain ⟨hq, hidle⟩ := tryStopTask_settles h
              exact ⟨⟨hq.kind.trans hkind.symm, hq.stays⟩, fun _ => hidle⟩

theorem setActive_active (s : Supervisor) (q : Publisher) : (s.setActive q).active = s.active := by
  rw [setActive]
  cases h : s.active with
  | none => exact h
  | some i => exact h

theorem setActive_watchdog (s : Supervisor) (q : Publisher) :
    (s.setActive q).watchdog = s.watchdog := by
  rw [setActive]
  cases s.active with
  | none => rfl
  | some i => rfl

theorem Sound.setActive (h : s.Sound) {p q : Publisher} (hp : s.activePublisher? = some p)
    (hq : Settles p q) : (s.setActive q).Sound := by
  obtain ⟨i, hi, hpi⟩ := Option.bind_eq_some_iff.mp hp
  rw [Supervisor.setActive, hi]
  exact h.setPublisher hpi hq

theorem setActive_activePublisher? {p q r : Publisher} (hp : s.activePublisher? = some p)
    (hr : (s.setActive q).activePublisher? = some r) : r = q := by
  obtain ⟨i, hi, hpi⟩ := Option.bind_eq_some_iff.mp hp
  have hlt := (List.getElem?_eq_some_iff.mp hpi).1
  rw [activePublisher?, setActive_active, hi] at hr
  rw [Supervisor.setActive, hi] at hr
  have hq : (s.publishers.set i q)[i]? = some q := by
    rw [List.getElem?_set_self hlt]
  exact Option.some.inj (hr.symm.trans hq)

/-! ### What the watchdog keeps -/

theorem Sound.dropClient (h : s.Sound) : Sound { s with kisClient := false } where
  runningActive := h.runningActive
  activeIn := h.activeIn
  kisOnly := h.kisOnly
  failing := h.failing
  oneFailover := h.oneFailover
  sleeping := h.sleeping
  oneMock := h.oneMock
  mockActive := h.mockActive
  mockReplaces := fun hm hidle => ⟨(h.mockReplaces hm hidle).1, fun _ => rfl⟩
  pastWatchdog := h.pastWatchdog
  pastActive := h.pastActive

theorem Sound.not_pastWatchdog (h : s.Sound) (hw : s.watchdog ≠ .unset) :
    ¬s.stopCall.pastWatchdog = true :=
  fun hp => hw (h.pastWatchdog hp)

/-- The phases of a fail-over are alike. -/
theorem Sound.setFailing (h : s.Sound) (hf : s.watchdog.failing = true) {w : Watchdog}
    (hw : w.failing = true) : Sound { s with watchdog := w } where
  runningActive := h.runningActive
  activeIn := h.activeIn
  kisOnly := fun _ => h.kisOnly (Watchdog.armed_of_failing hf)
  failing := fun _ => h.failing hf
  oneFailover := h.oneFailover
  sleeping := fun hs => by
    change w = .sleeping at hs
    rw [hs] at hw
    cases hw
  oneMock := h.oneMock
  mockActive := h.mockActive
  mockReplaces := h.mockReplaces
  pastWatchdog := fun hp => by
    have hunset := h.pastWatchdog hp
    rw [hunset] at hf
    cases hf
  pastActive := h.pastActive

/-- The mock starts where nothing runs and no mock was started before. -/
theorem Sound.finishFailover (h : s.Sound) (hf : s.watchdog.failing = true)
    (hclient : s.kisClient = false) : s.finishFailover.Sound := by
  have harmed := Watchdog.armed_of_failing hf
  have hpast : ¬s.stopCall.pastWatchdog = true := by
    apply h.not_pastWatchdog
    intro hw
    rw [hw] at hf
    cases hf
  have hkinds : s.finishFailover.kinds = s.kinds ++ [.mock] := List.map_append
  refine {
    runningActive := ?_
    activeIn := ?_
    kisOnly := nofun
    failing := nofun
    oneFailover := h.oneFailover
    sleeping := nofun
    oneMock := ?_
    mockActive := ?_
    mockReplaces := fun _ _ => ⟨nofun, fun _ => hclient⟩
    pastWatchdog := fun hp => absurd hp hpast
    pastActive := fun hp => absurd (StopCall.pastWatchdog_of_pastActive hp) hpast }
  · intro i p hi hr
    have hp : (s.publishers ++ [{ kind := .mock, task := .running }])[i]? = some p := hi
    rw [List.getElem?_append] at hp
    split_ifs at hp with hlt
    · have hidle := h.failing hf p (List.mem_of_getElem? hp)
      cases hidle.symm.trans hr
    · obtain ⟨hi', -⟩ := List.getElem?_eq_some_iff.mp hp
      have heq : i = s.publishers.length := by
        rw [List.length_singleton] at hi'
        omega
      rw [heq]
      rfl
  · intro i hi
    cases Option.some.inj hi
    simp [Supervisor.finishFailover, startMock]
  · rw [hkinds, List.count_append, List.count_eq_zero_of_not_mem (h.kisOnly harmed)]
    exact Nat.le_refl 1
  · intro _ hkis
    rw [activeKind?_eq_kinds, hkinds] at hkis
    have hlast : (s.kinds ++ [PublisherKind.mock])[s.publishers.length]? = some .mock := by
      rw [← List.length_map (f := Publisher.kind)]
      exact List.getElem?_concat_length
    cases hlast.symm.trans hkis

theorem Sound.closeKis (h : Sound { s with watchdog := .stopping }) : s.closeKis.Sound := by
  rw [Supervisor.closeKis]
  split_ifs with hc
  · exact h.setFailing rfl rfl
  · exact h.finishFailover rfl (Bool.eq_false_iff.mpr hc)

theorem setActive_stopping (s : Supervisor) (q : Publisher) :
    { s.setActive q with watchdog := .stopping } =
      Supervisor.setActive { s with watchdog := .stopping } q := by
  obtain ⟨publishers, active, kisClient, watchdog, stopCall, count⟩ := s
  cases active with
  | none => rfl
  | some i => rfl

theorem Sound.failOver (h : Sound { s with watchdog := .stopping }) : s.failOver.Sound := by
  rw [Supervisor.failOver]
  cases hp : s.activePublisher? with
  | none => exact h.closeKis
  | some p =>
      dsimp only
      cases hs : p.tryStop with
      | none => exact h
      | some r =>
          obtain ⟨result, q⟩ := r
          apply Sound.closeKis
          rw [setActive_stopping]
          exact h.setActive hp (tryStop_settles hs).1

theorem Sound.watch (h : s.Sound) (hw : s.watchdog = .sleeping) : s.watch.Sound := by
  have harmed : s.watchdog.armed = true := by
    rw [hw]
    rfl
  rw [Supervisor.watch]
  cases hp : s.activePublisher? with
  | none => exact h
  | some p =>
      dsimp only
      split_ifs with hr
      · exact h
      · apply Sound.failOver
        have hidle : ∀ q ∈ s.publishers, q.isRunning = false := by
          apply h.none_running
          intro q hq
          cases Option.some.inj (hp.symm.trans hq)
          exact Bool.eq_false_iff.mpr hr
        exact {
          runningActive := h.runningActive
          activeIn := h.activeIn
          kisOnly := fun _ => h.kisOnly harmed
          failing := fun _ => hidle
          oneFailover := Nat.le_of_eq (congrArg Nat.succ (h.sleeping hw))
          sleeping := nofun
          oneMock := h.oneMock
          mockActive := h.mockActive
          mockReplaces := fun hm => absurd hm (h.kisOnly harmed)
          pastWatchdog := fun hp => absurd hp (h.not_pastWatchdog (by rw [hw]; nofun))
          pastActive := h.pastActive }

/-! ### What `stop()` keeps -/

theorem Sound.unsetWatchdog (h : s.Sound) : Sound { s with watchdog := .unset } where
  runningActive := h.runningActive
  activeIn := h.activeIn
  kisOnly := nofun
  failing := nofun
  oneFailover := h.oneFailover
  sleeping := nofun
  oneMock := h.oneMock
  mockActive := h.mockActive
  mockReplaces := h.mockReplaces
  pastWatchdog := fun _ => rfl
  pastActive := h.pastActive

theorem Sound.setStopCall (h : s.Sound) {call : StopCall} (hidle : call ≠ .idle)
    (hw : call.pastWatchdog = true → s.watchdog = .unset)
    (ha : call.pastActive = true → s.active = none) : Sound { s with stopCall := call } where
  runningActive := h.runningActive
  activeIn := h.activeIn
  kisOnly := h.kisOnly
  failing := h.failing
  oneFailover := h.oneFailover
  sleeping := h.sleeping
  oneMock := h.oneMock
  mockActive := h.mockActive
  mockReplaces := fun _ h' => absurd h' hidle
  pastWatchdog := hw
  pastActive := ha

/-- The active publisher is dropped once nothing runs. -/
theorem Sound.stopClient (h : s.Sound) (hw : s.watchdog = .unset)
    (hidle : ∀ p, s.activePublisher? = some p → p.isRunning = false) :
    (Supervisor.stopClient { s with active := none }).Sound := by
  have hnone := h.none_running hidle
  refine {
    runningActive := ?_
    activeIn := nofun
    kisOnly := h.kisOnly
    failing := h.failing
    oneFailover := h.oneFailover
    sleeping := h.sleeping
    oneMock := h.oneMock
    mockActive := fun _ => nofun
    mockReplaces := fun _ hcall => ?_
    pastWatchdog := fun _ => hw
    pastActive := fun _ => rfl }
  · intro i p hi hr
    cases (hnone p (List.mem_of_getElem? hi)).symm.trans hr
  · change (if s.kisClient = true then StopCall.closing else .returned) = .idle at hcall
    split_ifs at hcall

theorem Sound.stopActive (h : s.Sound) (hw : s.watchdog = .unset) : s.stopActive.Sound := by
  rw [Supervisor.stopActive]
  cases hp : s.activePublisher? with
  | none =>
      have hactive : s.active = none := by
        cases ha : s.active with
        | none => rfl
        | some i =>
            have hlt := h.activeIn i ha
            rw [activePublisher?_of_active ha (List.getElem?_eq_getElem hlt)] at hp
            cases hp
      have hdone := h.stopClient hw fun p hp' => by
        rw [hp] at hp'
        cases hp'
      have hsame : { s with active := none } = s := by rw [← hactive]
      rwa [hsame] at hdone
  | some p =>
      dsimp only
      cases hs : p.tryStop with
      | none => exact h.setStopCall nofun (fun _ => hw) nofun
      | some r =>
          obtain ⟨result, q⟩ := r
          obtain ⟨hq, hidle⟩ := tryStop_settles hs
          have hsound := h.setActive hp hq
          have hunset : (s.setActive q).watchdog = .unset := by rw [setActive_watchdog, hw]
          cases result with
          | error e => exact hsound.setStopCall nofun (fun _ => hunset) nofun
          | ok u =>
              apply hsound.stopClient hunset
              intro r hr
              rw [setActive_activePublisher? hp hr]
              exact hidle rfl

/-- The watchdog ends, as it is cancelled or its work is done. -/
theorem Sound.endWatchdog (h : s.Sound) (hw : s.watchdog ≠ .unset) :
    Sound { s with watchdog := .ended } where
  runningActive := h.runningActive
  activeIn := h.activeIn
  kisOnly := nofun
  failing := nofun
  oneFailover := h.oneFailover
  sleeping := nofun
  oneMock := h.oneMock
  mockActive := h.mockActive
  mockReplaces := h.mockReplaces
  pastWatchdog := fun hp => absurd hp (h.not_pastWatchdog hw)
  pastActive := h.pastActive

theorem Sound.callStop (h : s.Sound) : s.callStop.Sound := by
  cases hw : s.watchdog with
  | unset =>
      have hcall : s.callStop = s.stopActive := by rw [Supervisor.callStop, hw]
      rw [hcall]
      exact h.stopActive hw
  | ended =>
      have hcall : s.callStop = s.leaveWatchdog := by rw [Supervisor.callStop, hw]
      rw [hcall]
      exact h.unsetWatchdog.stopActive rfl
  | sleeping =>
      have hcall : s.callStop =
          { s with watchdog := .ended, stopCall := .awaitingWatchdog } := by
        rw [Supervisor.callStop, hw]
      rw [hcall]
      exact (h.endWatchdog (by rw [hw]; nofun)).setStopCall nofun nofun nofun
  | stopping =>
      have hcall : s.callStop = { s with stopCall := .awaitingWatchdog } := by
        rw [Supervisor.callStop, hw]
      rw [hcall]
      exact h.setStopCall nofun nofun nofun
  | closing cancelled =>
      have hcall : s.callStop =
          { s with watchdog := .closing true, stopCall := .awaitingWatchdog } := by
        rw [Supervisor.callStop, hw]
      rw [hcall]
      exact (h.setFailing (w := .closing true) (by rw [hw]; rfl) rfl).setStopCall nofun nofun nofun

/-! ### Steps and runs -/

theorem endTask_spec {i : Nat} {how : TaskEnd} {s' : Supervisor}
    (hs : s.endTask i how = some s') :
    ∃ p, s.publishers[i]? = some p ∧ p.isRunning = true ∧
      s' = s.setPublisher i { p with task := .ended how } := by
  rw [endTask] at hs
  cases hp : s.publishers[i]? with
  | none =>
      rw [hp] at hs
      cases hs
  | some p =>
      rw [hp] at hs
      dsimp only at hs
      split_ifs at hs with hr
      cases hs
      exact ⟨p, rfl, by rw [Publisher.isRunning, hr]; rfl, rfl⟩

/-- Ending a refresh task changes nothing about who runs. -/
theorem endRefresh_spec {i : Nat} {how : TaskEnd} {s' : Supervisor}
    (hs : s.endRefresh i how = some s') :
    ∃ p, s.publishers[i]? = some p ∧
      s' = s.setPublisher i { p with refresh := .ended how } := by
  rw [endRefresh] at hs
  cases hp : s.publishers[i]? with
  | none =>
      rw [hp] at hs
      cases hs
  | some p =>
      rw [hp] at hs
      dsimp only at hs
      split_ifs at hs
      cases hs
      exact ⟨p, rfl, rfl⟩

theorem Sound.endTask (h : s.Sound) {i : Nat} {how : TaskEnd} {s' : Supervisor}
    (hs : s.endTask i how = some s') : s'.Sound := by
  obtain ⟨p, hp, -, rfl⟩ := endTask_spec hs
  exact h.setPublisher hp ⟨rfl, nofun⟩

theorem Sound.endRefresh (h : s.Sound) {i : Nat} {how : TaskEnd} {s' : Supervisor}
    (hs : s.endRefresh i how = some s') : s'.Sound := by
  obtain ⟨p, hp, rfl⟩ := endRefresh_spec hs
  exact h.setPublisher hp ⟨rfl, id⟩

theorem Sound.resumeStop (h : s.Sound) {s' : Supervisor}
    (hs : s.step .stopResumes = some s') : s'.Sound := by
  rw [Supervisor.step] at hs
  cases hcall : s.stopCall with
  | idle | returned | raised _ =>
      rw [hcall] at hs
      cases hs
  | awaitingWatchdog =>
      rw [hcall] at hs
      dsimp only at hs
      split_ifs at hs
      cases hs
      exact h.unsetWatchdog.stopActive rfl
  | stopping =>
      rw [hcall] at hs
      dsimp only at hs
      split_ifs at hs
      cases hs
      exact h.stopActive (h.pastWatchdog (by rw [hcall]; rfl))
  | closing =>
      rw [hcall] at hs
      cases hs
      have hactive := h.pastActive (by rw [hcall]; rfl)
      have hunset := h.pastWatchdog (by rw [hcall]; rfl)
      exact h.dropClient.setStopCall nofun (fun _ => hunset) fun _ => hactive

theorem Sound.step (h : s.Sound) {l : SupervisorLabel} {s' : Supervisor}
    (hs : s.step l = some s') : s'.Sound := by
  cases l with
  | taskEnds i how => exact h.endTask hs
  | refreshEnds i how => exact h.endRefresh hs
  | stopResumes => exact h.resumeStop hs
  | watchdogWakes =>
      rw [Supervisor.step] at hs
      split_ifs at hs with hw
      cases hs
      exact h.watch hw
  | watchdogResumes =>
      rw [Supervisor.step] at hs
      split_ifs at hs with hw
      cases hs
      exact Sound.failOver (h.setFailing (by rw [hw.1]; rfl) rfl)
  | clientClosed =>
      rw [Supervisor.step] at hs
      split at hs
      · rename_i cancelled hw
        cases hs
        exact h.dropClient.finishFailover (by rw [hw]; rfl) rfl
      · cases hs
  | closingCancelled =>
      rw [Supervisor.step] at hs
      split_ifs at hs with hw
      cases hs
      exact h.endWatchdog (by rw [hw]; nofun)
  | callStop =>
      rw [Supervisor.step] at hs
      split_ifs at hs
      cases hs
      exact h.callStop

/-- One publisher that is active and runs, and no call of `stop()` yet. -/
theorem sound_of_single {p : Publisher} (hs : s.publishers = [p]) (ha : s.active = some 0)
    (hcall : s.stopCall = .idle) (hcount : s.failoverCount = 0)
    (harmed : s.watchdog.armed = true → p.kind = .kis) (hcalm : s.watchdog.failing = false)  :
    s.Sound where
  runningActive := by
    intro i q hi _
    rw [hs] at hi
    cases i with
    | zero => exact ha
    | succ i => cases hi
  activeIn := by
    intro i hi
    cases Option.some.inj (ha.symm.trans hi)
    rw [hs]
    exact Nat.zero_lt_one
  kisOnly := by
    intro h
    rw [kinds, hs]
    simp [harmed h]
  failing := fun hf => absurd (hcalm.symm.trans hf) nofun
  oneFailover := by
    rw [hcount]
    exact Nat.zero_le 1
  sleeping := fun _ => hcount
  oneMock := by
    rw [kinds, hs]
    exact List.count_le_length
  mockActive := by
    intro hm
    rw [kinds, hs] at hm
    rw [activeKind?_of_active ha (p := p) (by rw [hs]; rfl), ← List.mem_singleton.mp hm]
    exact nofun
  mockReplaces := by
    intro _ _
    rw [ha, hcount]
    exact ⟨nofun, fun h => absurd h (Nat.not_succ_le_zero 0)⟩
  pastWatchdog := by
    intro h
    rw [hcall] at h
    cases h
  pastActive := by
    intro h
    rw [hcall] at h
    cases h

theorem start_sound (hasKisCreds kisOk development : Bool) :
    (start hasKisCreds kisOk development).Sound := by
  rw [start]
  split_ifs
  · exact sound_of_single rfl rfl rfl rfl (fun _ => rfl) rfl
  · exact sound_of_single rfl rfl rfl rfl nofun rfl
  · exact {
      runningActive := nofun
      activeIn := nofun
      kisOnly := nofun
      failing := nofun
      oneFailover := Nat.zero_le 1
      sleeping := nofun
      oneMock := Nat.zero_le 1
      mockActive := nofun
      mockReplaces := nofun
      pastWatchdog := nofun
      pastActive := nofun }

/-- In every state of every run after `start()` the publishers are exclusive. -/
theorem publishers_exclusive (hasKisCreds kisOk development : Bool)
    (ls : List SupervisorLabel) :
    machine.Throughout Exclusive (start hasKisCreds kisOk development) ls := by
  apply Machine.throughout_of_invariant (I := Sound) fun s h => h.exclusive
  · intro s l s' es h hs
    obtain ⟨t, ht, he⟩ := Option.map_eq_some_iff.mp hs
    cases he
    exact h.step ht
  · exact start_sound hasKisCreds kisOk development

end Supervisor
end NexusBackend
