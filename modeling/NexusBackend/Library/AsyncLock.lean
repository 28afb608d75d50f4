import Mathlib.Data.List.Basic

/-!
`asyncio.Lock`: first come, first served.

A lock that is free but has waiters is owed to the first of them: a newcomer queues behind
it. Holders and waiters are known by numbers of the caller's choice.
-/
namespace Python

/-- `asyncio.Lock`. A lock that is free but has waiters is owed to the first of them. -/
structure AsyncLock where
  locked : Bool := false
  waiters : List Nat := []
deriving DecidableEq

namespace AsyncLock

/-- `acquire()` where it does not suspend. -/
def acquire? (lock : AsyncLock) : Option AsyncLock :=
  if lock.locked = false ∧ lock.waiters = [] then some { lock with locked := true } else none

def enqueue (lock : AsyncLock) (id : Nat) : AsyncLock :=
  { lock with waiters := lock.waiters ++ [id] }

/-- The first waiter is woken. -/
def resume? (lock : AsyncLock) (id : Nat) : Option AsyncLock :=
  if lock.locked = false ∧ lock.waiters.head? = some id then
    some ⟨true, lock.waiters.tail⟩
  else none

def release (lock : AsyncLock) : AsyncLock := { lock with locked := false }

/-- A waiter that is cancelled leaves the queue. -/
def withdraw (lock : AsyncLock) (id : Nat) : AsyncLock :=
  { lock with waiters := lock.waiters.erase id }

theorem acquire?_spec {lock next : AsyncLock} (h : lock.acquire? = some next) :
    lock.locked = false ∧ next.locked = true := by
  simp only [acquire?, Option.ite_none_right_eq_some, Option.some.injEq] at h
  obtain ⟨⟨hfree, -⟩, rfl⟩ := h
  exact ⟨hfree, rfl⟩

theorem resume?_spec {lock next : AsyncLock} {id : Nat} (h : lock.resume? id = some next) :
    lock.locked = false ∧ next.locked = true := by
  simp only [resume?, Option.ite_none_right_eq_some, Option.some.injEq] at h
  obtain ⟨⟨hfree, -⟩, rfl⟩ := h
  exact ⟨hfree, rfl⟩

end AsyncLock
end Python
