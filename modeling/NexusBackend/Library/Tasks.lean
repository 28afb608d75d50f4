import NexusBackend.Library.Exceptions

/-!
Tasks of an event loop as the attributes of their owner, and how they are stopped:
`task.cancel()`, then `await task` with `CancelledError` caught.

A task that has ended is awaited without a suspension. How a running task answers its
cancellation is up to the task: it may return, be cancelled or raise. Cancellation of the
stopping code itself is not covered here.
-/
namespace Python

/-- How a task ends. -/
inductive TaskEnd
  | returned
  | cancelled
  | raised (e : Exn)
deriving DecidableEq

/-- The task attribute of an owner: `None`, or a task. -/
inductive TaskStatus
  | unset
  | running
  | ended (how : TaskEnd)
deriving DecidableEq

/-- `try: await task  except CancelledError: pass` of a task that has ended; behind it the
attribute is cleared. -/
def TaskEnd.settle : TaskEnd → Except Exn Unit × TaskStatus
  | raised e => (.error e, .ended (.raised e))
  | _ => (.ok (), .unset)

namespace TaskStatus

/-- `is_running`. -/
def isRunning : TaskStatus → Bool
  | running => true
  | _ => false

/-- The stop of a cancelled task as far as it comes: nothing while the task still runs. -/
def release : TaskStatus → Option (Except Exn Unit × TaskStatus)
  | unset => some (.ok (), unset)
  | running => none
  | ended how => some how.settle

/-- The whole stop of a task that answers its cancellation by `answer`. -/
def stop (answer : TaskEnd) : TaskStatus → Except Exn Unit × TaskStatus
  | unset => (.ok (), unset)
  | running => answer.settle
  | ended how => how.settle

/-- The task has raised, or raises when it is cancelled. -/
def Raises (answer : TaskEnd) : TaskStatus → Prop
  | unset => False
  | running => ∃ e, answer = .raised e
  | ended how => ∃ e, how = .raised e

theorem release_eq_stop {t : TaskStatus} {r : Except Exn Unit × TaskStatus}
    (h : t.release = some r) (answer : TaskEnd) : t.stop answer = r := by
  cases t with
  | unset => exact Option.some.inj h
  | running => cases h
  | ended how => exact Option.some.inj h

theorem release_some {t : TaskStatus} {r : Except Exn Unit × TaskStatus}
    (h : t.release = some r) : t.isRunning = false ∧ r.2.isRunning = false := by
  cases t with
  | unset => cases h; exact ⟨rfl, rfl⟩
  | running => cases h
  | ended how => cases how <;> cases h <;> exact ⟨rfl, rfl⟩

end TaskStatus

theorem TaskEnd.settle_cases (how : TaskEnd) :
    (∃ e, how = .raised e ∧ how.settle = (.error e, .ended how)) ∨
      (¬∃ e, how = .raised e) ∧ how.settle = (.ok (), .unset) := by
  cases how with
  | returned => exact .inr ⟨nofun, rfl⟩
  | cancelled => exact .inr ⟨nofun, rfl⟩
  | raised e => exact .inl ⟨e, rfl, rfl⟩

/-- A stop raises exactly when its task does, and otherwise clears the attribute. -/
theorem TaskStatus.stop_cases (answer : TaskEnd) (t : TaskStatus) :
    (t.Raises answer ∧ ∃ e t', t.stop answer = (.error e, t')) ∨
      ¬t.Raises answer ∧ t.stop answer = (.ok (), .unset) := by
  cases t with
  | unset => exact .inr ⟨id, rfl⟩
  | running =>
      obtain ⟨e, he, hs⟩ | ⟨hn, hs⟩ := answer.settle_cases
      · exact .inl ⟨⟨e, he⟩, e, _, hs⟩
      · exact .inr ⟨hn, hs⟩
  | ended how =>
      obtain ⟨e, he, hs⟩ | ⟨hn, hs⟩ := how.settle_cases
      · exact .inl ⟨⟨e, he⟩, e, _, hs⟩
      · exact .inr ⟨hn, hs⟩

/-! ### A sequence of steps that the first exception cuts short -/

section
variable {α : Type*}

/-- The steps that are entered, up to the first that raises. -/
def reached : List (α × Except Exn Unit) → List α
  | [] => []
  | (a, .ok ()) :: rest => a :: reached rest
  | (a, .error _) :: _ => [a]

theorem reached_append (before after : List (α × Except Exn Unit)) :
    reached (before ++ after) =
      if ∀ step ∈ before, step.2 = .ok () then reached before ++ reached after
      else reached before := by
  induction before with
  | nil => simp [reached]
  | cons step before ih =>
      obtain ⟨a, result⟩ := step
      cases result with
      | error e => simp [reached]
      | ok u =>
          simp only [List.cons_append, reached, ih, List.forall_mem_cons, true_and]
          split_ifs
          · rfl
          · rfl

theorem reached_subset (steps : List (α × Except Exn Unit)) {a : α} (h : a ∈ reached steps) :
    ∃ result, (a, result) ∈ steps := by
  induction steps with
  | nil => cases h
  | cons step steps ih =>
      obtain ⟨b, result⟩ := step
      cases result with
      | error e =>
          rw [reached, List.mem_singleton] at h
          subst h
          exact ⟨_, List.mem_cons_self⟩
      | ok u =>
          rw [reached, List.mem_cons] at h
          cases h with
          | inl h =>
              subst h
              exact ⟨_, List.mem_cons_self⟩
          | inr h =>
              obtain ⟨result, hmem⟩ := ih h
              exact ⟨result, List.mem_cons_of_mem _ hmem⟩

/-- A step that stands at one place only is entered exactly when none before it raises. -/
theorem mem_reached_iff {before after : List (α × Except Exn Unit)} {a : α}
    {result : Except Exn Unit} (hnew : ∀ step ∈ before, step.1 ≠ a) :
    a ∈ reached (before ++ (a, result) :: after) ↔ ∀ step ∈ before, step.2 = .ok () := by
  rw [reached_append]
  split_ifs with h
  · refine iff_of_true (List.mem_append_right _ ?_) h
    cases result <;> exact List.mem_cons_self
  · refine iff_of_false (fun hmem => ?_) h
    obtain ⟨result', hstep⟩ := reached_subset before hmem
    exact hnew _ hstep rfl

end
end Python
