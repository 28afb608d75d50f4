import NexusBackend.Publishers.Supervisor
import Mathlib.Algebra.Order.Field.Rat
import Mathlib.Tactic.Linarith

/-!
The supervisor in development with a clock: how long after the end of a publisher another
one runs.

Times are exact numbers of seconds. The watchdog wakes on time; everything else takes the
time that the run gives it. No call of `stop()` is part of a run here.
-/
namespace NexusBackend

open Python Transition

/-- `_WATCHDOG_INTERVAL_S`. -/
def watchdogInterval : ℚ := 5

/-- When the sleep of the watchdog ends, and when a publisher last ended. -/
structure TimedSupervisor where
  supervisor : Supervisor
  now : ℚ := 0
  due : ℚ := watchdogInterval
  lastEnd : Option ℚ := none

inductive TimedLabel
  | elapse (d : ℚ)
  | act (l : SupervisorLabel)

namespace TimedSupervisor

def start (hasKisCreds kisOk : Bool) : TimedSupervisor :=
  { supervisor := Supervisor.start hasKisCreds kisOk true }

def withSupervisor (s : TimedSupervisor) (t : Supervisor) : TimedSupervisor :=
  { s with supervisor := t }

def step (s : TimedSupervisor) : TimedLabel → Option TimedSupervisor
  | .elapse d =>
      if 0 ≤ d ∧ (s.supervisor.watchdog = .sleeping → s.now + d ≤ s.due) then
        some { s with now := s.now + d }
      else none
  | .act .callStop => none
  | .act .watchdogWakes =>
      if s.due ≤ s.now then
        (s.supervisor.step .watchdogWakes).map fun t =>
          { s.withSupervisor t with due := s.now + watchdogInterval }
      else none
  | .act (.taskEnds i how) =>
      (s.supervisor.step (.taskEnds i how)).map fun t =>
        { s.withSupervisor t with lastEnd := some s.now }
  | .act l => (s.supervisor.step l).map s.withSupervisor

def machine : Machine TimedSupervisor TimedLabel Unit where
  step s l := (s.step l).map fun s' => (s', [])

/-- Some publisher runs once more than an interval has passed since one ended. -/
def Available (s : TimedSupervisor) : Prop :=
  ∀ c, s.lastEnd = some c → c + watchdogInterval < s.now →
    ∃ p ∈ s.supervisor.publishers, p.isRunning = true

/-- The step ends no mock, and no time passes in a fail-over beyond the interval. -/
def Benign (s : TimedSupervisor) : TimedLabel → Prop
  | .elapse d => s.supervisor.watchdog.failing = true →
      ∀ c ∈ s.lastEnd, s.now + d ≤ c + watchdogInterval
  | .act (.taskEnds i _) => s.supervisor.kinds[i]? ≠ some .mock
  | .act _ => True

instance (s : TimedSupervisor) : (l : TimedLabel) → Decidable (s.Benign l)
  | .elapse _ => inferInstanceAs (Decidable (_ → ∀ c ∈ s.lastEnd, _))
  | .act (.taskEnds i _) => inferInstanceAs (Decidable (s.supervisor.kinds[i]? ≠ some .mock))
  | .act (.refreshEnds _ _) => isTrue trivial
  | .act .watchdogWakes => isTrue trivial
  | .act .watchdogResumes => isTrue trivial
  | .act .clientClosed => isTrue trivial
  | .act .closingCancelled => isTrue trivial
  | .act .callStop => isTrue trivial
  | .act .stopResumes => isTrue trivial

end TimedSupervisor

/-! ### Fail-overs of the untimed supervisor -/

namespace Supervisor

variable {s t : Supervisor}

/-- A mock runs. -/
def MockRuns (s : Supervisor) : Prop := ∃ p ∈ s.publishers, p.kind = .mock ∧ p.isRunning = true

/-- A fail-over is under way or it has started the mock. -/
structure Replacing (s : Supervisor) : Prop where
  active : s.active ≠ none
  stopCall : s.stopCall = .idle
  progress : s.watchdog = .stopping ∨ s.watchdog = .closing false ∨
    s.watchdog = .ended ∧ s.MockRuns

theorem finishFailover_replacing (hcall : s.stopCall = .idle) : s.finishFailover.Replacing where
  active := nofun
  stopCall := hcall
  progress := .inr (.inr ⟨rfl, { kind := .mock, task := .running },
    List.mem_append_right _ (List.mem_singleton_self _), rfl, rfl⟩)

theorem closeKis_replacing (hactive : s.active ≠ none) (hcall : s.stopCall = .idle) :
    s.closeKis.Replacing := by
  rw [closeKis]
  split_ifs
  · exact ⟨hactive, hcall, .inr (.inl rfl)⟩
  · exact finishFailover_replacing hcall

theorem setActive_stopCall (s : Supervisor) (q : Publisher) :
    (s.setActive q).stopCall = s.stopCall := by
  rw [setActive]
  cases s.active with
  | none => rfl
  | some i => rfl

theorem failOver_replacing (hactive : s.active ≠ none) (hcall : s.stopCall = .idle) :
    s.failOver.Replacing := by
  rw [failOver]
  cases s.activePublisher? with
  | none => exact closeKis_replacing hactive hcall
  | some p =>
      dsimp only
      cases p.tryStop with
      | none => exact ⟨hactive, hcall, .inl rfl⟩
      | some r =>
          apply closeKis_replacing
          · rw [setActive_active]
            exact hactive
          · rw [setActive_stopCall]
            exact hcall

end Supervisor

/-! ### The invariant of the clock -/

namespace TimedSupervisor

/-- A publisher runs, or the one that ended last is replaced in time. -/
def Covered (s : TimedSupervisor) : Prop :=
  (∃ p ∈ s.supervisor.publishers, p.isRunning = true) ∨
    ∃ c, s.lastEnd = some c ∧
      (s.supervisor.watchdog = .sleeping ∧ s.due ≤ c + watchdogInterval ∨
        s.supervisor.watchdog.failing = true ∧ s.now ≤ c + watchdogInterval)

structure Served (s : TimedSupervisor) : Prop where
  sound : s.supervisor.Sound
  active : s.supervisor.active ≠ none
  stopCall : s.supervisor.stopCall = .idle
  uncancelled : s.supervisor.watchdog ≠ .closing true
  sleeping : s.supervisor.watchdog = .sleeping →
    s.now ≤ s.due ∧ s.due ≤ s.now + watchdogInterval
  kisWatched : s.supervisor.watchdog ≠ .sleeping →
    ∀ p ∈ s.supervisor.publishers, p.kind = .kis → p.isRunning = false
  covered : s.Covered

theorem Served.available {s : TimedSupervisor} (h : s.Served) : s.Available := by
  intro c hc hlate
  obtain hrun | ⟨c', hc', hin⟩ := h.covered
  · exact hrun
  · cases Option.some.inj (hc.symm.trans hc')
    obtain ⟨hsleep, hdue⟩ | ⟨-, hnow⟩ := hin
    · have hnow := (h.sleeping hsleep).1
      exact absurd hlate (not_lt.mpr (hnow.trans hdue))
    · exact absurd hlate (not_lt.mpr hnow)

variable {s : TimedSupervisor}

theorem Served.elapse (h : s.Served) {d : ℚ} (hd : 0 ≤ d)
    (hsleep : s.supervisor.watchdog = .sleeping → s.now + d ≤ s.due)
    (hb : s.Benign (.elapse d)) : Served { s with now := s.now + d } where
  sound := h.sound
  active := h.active
  stopCall := h.stopCall
  uncancelled := h.uncancelled
  sleeping := by
    intro hw
    have hdue := (h.sleeping hw).2
    refine ⟨hsleep hw, ?_⟩
    change s.due ≤ s.now + d + watchdogInterval
    linarith
  kisWatched := h.kisWatched
  covered := by
    obtain hrun | ⟨c, hc, hin⟩ := h.covered
    · exact .inl hrun
    · refine .inr ⟨c, hc, ?_⟩
      obtain hw | ⟨hw, -⟩ := hin
      · exact .inl hw
      · exact .inr ⟨hw, hb hw c hc⟩

/-- A fail-over that goes on within the interval, or is done. -/
theorem replace_served {t : Supervisor} (ht : t.Sound) (hr : t.Replacing)
    {c : ℚ} (hc : s.lastEnd = some c) (hnow : s.now ≤ c + watchdogInterval) :
    Served (s.withSupervisor t) := by
  have hwatch : t.watchdog.failing = true ∧ t.watchdog ≠ .closing true ∨
      t.watchdog = .ended ∧ t.MockRuns := by
    obtain hw | hw | hw := hr.progress
    · exact .inl (by rw [hw]; exact ⟨rfl, nofun⟩)
    · exact .inl (by rw [hw]; exact ⟨rfl, nofun⟩)
    · exact .inr hw
  refine {
    sound := ht
    active := hr.active
    stopCall := hr.stopCall
    uncancelled := ?_
    sleeping := ?_
    kisWatched := ?_
    covered := ?_ }
  · obtain ⟨-, hw⟩ | ⟨hw, -⟩ := hwatch
    · exact hw
    · change t.watchdog ≠ _
      rw [hw]
      exact nofun
  · intro hw
    change t.watchdog = _ at hw
    rw [hw] at hwatch
    obtain ⟨hf, -⟩ | ⟨hf, -⟩ := hwatch
    · cases hf
    · cases hf
  · intro _ p hp hk
    obtain ⟨hf, -⟩ | ⟨-, q, hq, hmock, -⟩ := hwatch
    · exact ht.failing hf p hp
    · have hmem : .mock ∈ t.kinds := by
        rw [← hmock]
        exact List.mem_map_of_mem hq
      exact (ht.exclusive.neverReversed hmem).2 p hp hk
  · obtain ⟨hf, -⟩ | ⟨-, q, hq, -, hrun⟩ := hwatch
    · exact .inr ⟨c, hc, .inr ⟨hf, hnow⟩⟩
    · exact .inl ⟨q, hq, hrun⟩

theorem Served.endTask (h : s.Served) {i : Nat} {how : TaskEnd} {t : Supervisor}
    (hb : s.Benign (.act (.taskEnds i how))) (ht : s.supervisor.endTask i how = some t) :
    Served { s.withSupervisor t with lastEnd := some s.now } := by
  obtain ⟨p, hp, hrun, rfl⟩ := Supervisor.endTask_spec ht
  have hkis : p.kind = .kis := by
    have hkind : s.supervisor.kinds[i]? = some p.kind := by
      rw [Supervisor.kinds, List.getElem?_map, hp]
      rfl
    change s.supervisor.kinds[i]? ≠ _ at hb
    rw [hkind] at hb
    cases hk : p.kind with
    | kis => rfl
    | mock => exact absurd (congrArg some hk) hb
  have hsleep : s.supervisor.watchdog = .sleeping := by
    by_contra hw
    have hidle := h.kisWatched hw p (List.mem_of_getElem? hp) hkis
    cases hidle.symm.trans hrun
  exact {
    sound := h.sound.endTask ht
    active := h.active
    stopCall := h.stopCall
    uncancelled := h.uncancelled
    sleeping := h.sleeping
    kisWatched := fun hw => absurd hsleep hw
    covered := .inr ⟨s.now, rfl, .inl ⟨hsleep, (h.sleeping hsleep).2⟩⟩ }

theorem Served.endRefresh (h : s.Served) {i : Nat} {how : TaskEnd} {t : Supervisor}
    (ht : s.supervisor.endRefresh i how = some t) : Served (s.withSupervisor t) := by
  have hsound := h.sound.endRefresh ht
  obtain ⟨p, hp, rfl⟩ := Supervisor.endRefresh_spec ht
  refine {
    sound := hsound
    active := h.active
    stopCall := h.stopCall
    uncancelled := h.uncancelled
    sleeping := h.sleeping
    kisWatched := ?_
    covered := ?_ }
  · intro hw r hr hk
    obtain ⟨j, hj⟩ := List.getElem?_of_mem hr
    obtain ⟨rfl, rfl⟩ | hj := Supervisor.setPublisher_getElem? hj
    · exact h.kisWatched hw p (List.mem_of_getElem? hp) hk
    · exact h.kisWatched hw r (List.mem_of_getElem? hj) hk
  · obtain ⟨r, hr, hrr⟩ | hin := h.covered
    · obtain ⟨j, hj⟩ := List.getElem?_of_mem hr
      by_cases hij : i = j
      · subst hij
        cases Option.some.inj (hp.symm.trans hj)
        have hlt := (List.getElem?_eq_some_iff.mp hp).1
        exact .inl ⟨_, List.mem_of_getElem? (List.getElem?_set_self hlt), hrr⟩
      · exact .inl ⟨r, List.mem_of_getElem? ((List.getElem?_set_ne hij).trans hj), hrr⟩
    · exact .inr hin

/-- The watchdog wakes on time. -/
theorem Served.wake (h : s.Served)
    (hw : s.supervisor.watchdog = .sleeping) :
    Served { s.withSupervisor s.supervisor.watch with due := s.now + watchdogInterval } := by
  obtain ⟨i, hi⟩ := Option.ne_none_iff_exists'.mp h.active
  have hlt := h.sound.activeIn i hi
  have hp := Supervisor.activePublisher?_of_active hi (List.getElem?_eq_getElem hlt)
  have hlate : s.now ≤ s.now + watchdogInterval := by
    rw [watchdogInterval]
    linarith
  by_cases hr : s.supervisor.publishers[i].isRunning = true
  · have hwatch : s.supervisor.watch = s.supervisor := by
      rw [Supervisor.watch, hp]
      exact if_pos hr
    rw [hwatch]
    exact {
      sound := h.sound
      active := h.active
      stopCall := h.stopCall
      uncancelled := h.uncancelled
      sleeping := fun _ => ⟨hlate, le_refl _⟩
      kisWatched := h.kisWatched
      covered := .inl ⟨_, List.getElem_mem hlt, hr⟩ }
  · have hwatch : s.supervisor.watch = Supervisor.failOver
        { s.supervisor with failoverCount := s.supervisor.failoverCount + 1 } := by
      rw [Supervisor.watch, hp]
      exact if_neg hr
    have hreplace : s.supervisor.watch.Replacing := by
      rw [hwatch]
      exact Supervisor.failOver_replacing h.active h.stopCall
    obtain ⟨c, hc, hin⟩ : ∃ c, s.lastEnd = some c ∧ s.now ≤ c + watchdogInterval := by
      obtain ⟨q, hq, hrun⟩ | ⟨c, hc, ⟨-, hin⟩ | ⟨-, hin⟩⟩ := h.covered
      · have hactive := h.sound.active_of_running hq hrun
        cases Option.some.inj (hp.symm.trans hactive)
        exact absurd hrun hr
      · exact ⟨c, hc, ((h.sleeping hw).1.trans hin)⟩
      · exact ⟨c, hc, hin⟩
    have hserved := replace_served (h.sound.watch hw) hreplace hc hin
    exact {
      sound := hserved.sound
      active := hserved.active
      stopCall := hserved.stopCall
      uncancelled := hserved.uncancelled
      sleeping := fun _ => ⟨hlate, le_refl _⟩
      kisWatched := hserved.kisWatched
      covered := by
        obtain hrun | ⟨c', hc', ⟨hsleep, -⟩ | hf⟩ := hserved.covered
        · exact .inl hrun
        · obtain hw' | hw' | ⟨hw', -⟩ := hreplace.progress
          all_goals
            change s.supervisor.watch.watchdog = _ at hsleep
            rw [hw'] at hsleep
            cases hsleep
        · exact .inr ⟨c', hc', .inr hf⟩ }

/-- In a fail-over nothing runs, and the interval is not over. -/
theorem Served.failing (h : s.Served) (hf : s.supervisor.watchdog.failing = true) :
    ∃ c, s.lastEnd = some c ∧ s.now ≤ c + watchdogInterval := by
  obtain ⟨p, hp, hrun⟩ | ⟨c, hc, ⟨hw, -⟩ | ⟨-, hin⟩⟩ := h.covered
  · cases (h.sound.failing hf p hp).symm.trans hrun
  · rw [hw] at hf
    cases hf
  · exact ⟨c, hc, hin⟩

theorem Served.step (h : s.Served) {l : TimedLabel} {s' : TimedSupervisor}
    (hb : s.Benign l) (hs : s.step l = some s') : s'.Served := by
  cases l with
  | elapse d =>
      rw [TimedSupervisor.step] at hs
      split_ifs at hs with hd
      cases hs
      exact h.elapse hd.1 hd.2 hb
  | act l =>
      cases l with
      | callStop => cases hs
      | taskEnds i how =>
          obtain ⟨t, ht, rfl⟩ := Option.map_eq_some_iff.mp hs
          exact h.endTask hb ht
      | refreshEnds i how =>
          obtain ⟨t, ht, rfl⟩ := Option.map_eq_some_iff.mp hs
          exact h.endRefresh ht
      | watchdogWakes =>
          rw [TimedSupervisor.step] at hs
          split_ifs at hs
          obtain ⟨t, ht, rfl⟩ := Option.map_eq_some_iff.mp hs
          rw [Supervisor.step] at ht
          split_ifs at ht with hw
          cases ht
          exact h.wake hw
      | watchdogResumes =>
          obtain ⟨t, ht, rfl⟩ := Option.map_eq_some_iff.mp hs
          have hsound := h.sound.step ht
          rw [Supervisor.step] at ht
          split_ifs at ht with hw
          cases ht
          obtain ⟨c, hc, hin⟩ := h.failing (by rw [hw.1]; rfl)
          exact replace_served hsound (Supervisor.failOver_replacing h.active h.stopCall) hc hin
      | clientClosed =>
          obtain ⟨t, ht, rfl⟩ := Option.map_eq_some_iff.mp hs
          have hsound := h.sound.step ht
          rw [Supervisor.step] at ht
          split at ht
          · rename_i cancelled hw
            cases ht
            obtain ⟨c, hc, hin⟩ := h.failing (by rw [hw]; rfl)
            exact replace_served hsound (Supervisor.finishFailover_replacing h.stopCall) hc hin
          · cases ht
      | closingCancelled =>
          obtain ⟨t, ht, rfl⟩ := Option.map_eq_some_iff.mp hs
          rw [Supervisor.step] at ht
          split_ifs at ht with hw
          exact absurd hw h.uncancelled
      | stopResumes =>
          obtain ⟨t, ht, rfl⟩ := Option.map_eq_some_iff.mp hs
          rw [Supervisor.step, h.stopCall] at ht
          cases ht

theorem start_served (hasKisCreds kisOk : Bool) : (start hasKisCreds kisOk).Served := by
  have hsound := Supervisor.start_sound hasKisCreds kisOk true
  rw [start, Supervisor.start] at *
  split_ifs at *
  · exact {
      sound := hsound
      active := by
        intro h
        cases h
      stopCall := rfl
      uncancelled := by
        intro h
        cases h
      sleeping := by
        intro _
        change (0 : ℚ) ≤ watchdogInterval ∧ watchdogInterval ≤ 0 + watchdogInterval
        rw [watchdogInterval]
        norm_num
      kisWatched := fun hw => absurd rfl hw
      covered := .inl ⟨_, List.mem_singleton_self _, rfl⟩ }
  · exact {
      sound := hsound
      active := by
        intro h
        cases h
      stopCall := rfl
      uncancelled := by
        intro h
        cases h
      sleeping := by
        intro h
        cases h
      kisWatched := by
        intro _ p hp hk
        rw [List.mem_singleton.mp hp] at hk
        cases hk
      covered := .inl ⟨_, List.mem_singleton_self _, rfl⟩ }
  · exact absurd rfl ‹¬true = true›

/-- In development, where no mock ends and every fail-over is done within the interval, a
publisher runs whenever more than an interval has passed since one ended. -/
theorem feed_available (hasKisCreds kisOk : Bool) (ls : List TimedLabel)
    (hb : machine.Along Benign (start hasKisCreds kisOk) ls) :
    machine.Throughout Available (start hasKisCreds kisOk) ls := by
  apply Machine.throughout_of_invariant_along (I := Served) (fun s h => h.available) ?_ ls
    (start_served hasKisCreds kisOk) hb
  intro s l s' es hC h hs
  obtain ⟨t, ht, he⟩ := Option.map_eq_some_iff.mp hs
  cases he
  exact h.step hC ht

/-- The KIS publisher dies a second after the start and is replaced in five. -/
def kisDies : List TimedLabel :=
  [.elapse 1, .act (.taskEnds 0 .returned), .elapse 4, .act .watchdogWakes,
    .act (.refreshEnds 0 .cancelled), .act .watchdogResumes, .elapse 1, .act .clientClosed,
    .elapse 10]

theorem kisDies_available : (machine.run (start true true) kisDies).isSome = true ∧
    machine.Throughout Available (start true true) kisDies :=
  ⟨by decide +kernel, feed_available true true kisDies (by decide +kernel)⟩

/-- Without credentials the mock runs from the start, and dies. -/
def mockDies : List TimedLabel :=
  [.act (.taskEnds 0 (.raised ⟨.named (text "ConnectionError"), []⟩)), .elapse 6]

theorem mockDies_unavailable : ¬machine.Throughout Available (start false false) mockDies := by
  intro h
  have hlast := Machine.throughout_last h rfl
  obtain ⟨p, hp, hrun⟩ := hlast 0 rfl (by decide +kernel)
  cases hp with
  | head => cases hrun
  | tail _ hp => cases hp

end TimedSupervisor
end NexusBackend
