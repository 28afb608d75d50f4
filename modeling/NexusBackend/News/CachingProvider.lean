import NexusBackend.Library.AsyncLock
import NexusBackend.Library.Exceptions
import NexusBackend.Library.Transition
import Mathlib.Algebra.Order.Ring.Rat
import Mathlib.Logic.Function.Basic

/-!
`CachingNewsProvider.recent_headlines`, called by any number of coroutines, one await at
a time: the lock of a symbol and the fetch of the inner provider.

A call that does not suspend runs in one step. The lock is that of `asyncio`, first come
first served; none of its waiters is cancelled. The clock is read where the code reads
it, and does not go back; log records are left out.
-/
namespace NexusBackend

open Python Transition

structure CacheEntry where
  headlines : List Text
  fetchedAt : ℚ
deriving DecidableEq

/-- Where a call stands: at the lock, at the inner provider with the entry it has found
before, or at its end. -/
inductive NewsPhase
  | waiting
  | fetching (stale : Option CacheEntry)
  | returned (headlines : List Text)
deriving DecidableEq

structure NewsCall where
  symbol : Text
  phase : NewsPhase
deriving DecidableEq

structure CachingNewsProvider where
  ttl : ℚ
  ttl_pos : 0 < ttl

def CachingNewsProvider.make (ttl : ℚ) : Except Exn CachingNewsProvider :=
  if h : 0 < ttl then .ok ⟨ttl, h⟩ else raise .valueError

/-- The fields of the provider, the calls so far, and the last reading of the clock. -/
structure NewsState where
  cache : Text → Option CacheEntry
  locks : Text → AsyncLock
  hitCount : Nat
  missCount : Nat
  calls : List NewsCall
  clock : ℚ

/-- A new call, with its readings of the clock on the fast path and under the lock; a
waiter that is woken; or an inner fetch that ends. The start and the end of a fetch are
instants of the same clock. -/
inductive NewsLabel
  | call (symbol : Text) (fastAt checkedAt startedAt : ℚ)
  | resume (id : Nat) (checkedAt startedAt : ℚ)
  | fetched (id : Nat) (outcome : Except Exn (List Text)) (completedAt readAt : ℚ)

/-- What an inner fetch shows to the outside. -/
inductive FetchMark
  | started (id : Nat) (at' : ℚ)
  | completed (id : Nat) (at' : ℚ)
deriving DecidableEq

structure FetchEvent where
  symbol : Text
  mark : FetchMark
deriving DecidableEq

namespace NewsState

def initial (clock : ℚ) : NewsState := ⟨fun _ => none, fun _ => {}, 0, 0, [], clock⟩

def setPhase (s : NewsState) (id : Nat) (symbol : Text) (phase : NewsPhase) : NewsState :=
  { s with calls := s.calls.set id ⟨symbol, phase⟩ }

def setLock (s : NewsState) (symbol : Text) (lock : AsyncLock) : NewsState :=
  { s with locks := Function.update s.locks symbol lock }

def setEntry (s : NewsState) (symbol : Text) (entry : CacheEntry) : NewsState :=
  { s with cache := Function.update s.cache symbol (some entry) }

/-- A call that finds fresh headlines. -/
def hit (s : NewsState) (id : Nat) (symbol : Text) (entry : CacheEntry) : NewsState :=
  { s.setPhase id symbol (.returned entry.headlines) with hitCount := s.hitCount + 1 }

def miss (s : NewsState) (id : Nat) (symbol : Text) (stale : Option CacheEntry) : NewsState :=
  { s.setPhase id symbol (.fetching stale) with missCount := s.missCount + 1 }

end NewsState

namespace CachingNewsProvider

variable (p : CachingNewsProvider)

/-- The entry of the symbol, if it is fresh at this reading. -/
def fresh? (s : NewsState) (symbol : Text) (now : ℚ) : Option CacheEntry :=
  (s.cache symbol).filter fun entry => now - entry.fetchedAt < p.ttl

/-- Under the lock, up to the next await: a hit gives the lock back, a miss keeps it. -/
def underLock (s : NewsState) (id : Nat) (symbol : Text) (lock : AsyncLock)
    (checkedAt startedAt : ℚ) : NewsState × List FetchEvent :=
  match p.fresh? s symbol checkedAt with
  | some entry => ((s.hit id symbol entry).setLock symbol lock.release, [])
  | none =>
      ((s.miss id symbol (s.cache symbol)).setLock symbol lock,
        [⟨symbol, .started id startedAt⟩])

/-- A call up to its first await. -/
def begin (s : NewsState) (symbol : Text) (fastAt checkedAt startedAt : ℚ) :
    NewsState × List FetchEvent :=
  let id := s.calls.length
  let arrived := { s with calls := s.calls ++ [⟨symbol, .waiting⟩], clock := startedAt }
  match p.fresh? s symbol fastAt with
  | some entry => (arrived.hit id symbol entry, [])
  | none =>
      match (s.locks symbol).acquire? with
      | some lock => p.underLock arrived id symbol lock checkedAt startedAt
      | none => (arrived.setLock symbol ((s.locks symbol).enqueue id), [])

/-- What the fetch leaves in the cache: nothing new is no reason to drop what is old. -/
def keep (stale : Option CacheEntry) (headlines : List Text) : List Text :=
  match stale with
  | some entry => if headlines = [] ∧ entry.headlines ≠ [] then entry.headlines else headlines
  | none => headlines

/-- An inner provider that raises has found nothing. -/
def headlinesOf : Except Exn (List Text) → List Text
  | .ok headlines => headlines
  | .error _ => []

/-- From the end of the inner fetch to the end of the call. -/
def land (s : NewsState) (id : Nat) (symbol : Text) (stale : Option CacheEntry)
    (outcome : Except Exn (List Text)) (completedAt readAt : ℚ) : NewsState × List FetchEvent :=
  let kept := keep stale (headlinesOf outcome)
  ((({ s with clock := readAt }.setEntry symbol ⟨kept, readAt⟩).setPhase id symbol
      (.returned kept)).setLock symbol (s.locks symbol).release,
    [⟨symbol, .completed id completedAt⟩])

def step (s : NewsState) : NewsLabel → Option (NewsState × List FetchEvent)
  | .call symbol fastAt checkedAt startedAt =>
      if s.clock ≤ fastAt ∧ fastAt ≤ checkedAt ∧ checkedAt ≤ startedAt then
        some (p.begin s symbol fastAt checkedAt startedAt)
      else none
  | .resume id checkedAt startedAt =>
      match s.calls[id]? with
      | some ⟨symbol, .waiting⟩ =>
          match (s.locks symbol).resume? id with
          | some lock =>
              if s.clock ≤ checkedAt ∧ checkedAt ≤ startedAt then
                some (p.underLock { s with clock := startedAt } id symbol lock checkedAt startedAt)
              else none
          | none => none
      | _ => none
  | .fetched id outcome completedAt readAt =>
      match s.calls[id]? with
      | some ⟨symbol, .fetching stale⟩ =>
          if s.clock ≤ completedAt ∧ completedAt ≤ readAt then
            some (land s id symbol stale outcome completedAt readAt)
          else none
      | _ => none

def recentHeadlines : Machine NewsState NewsLabel FetchEvent := ⟨p.step⟩

/-! ### What a step can be -/

inductive Stepped (s t : NewsState) (es : List FetchEvent) : NewsLabel → Prop
  | call (symbol : Text) (fastAt checkedAt startedAt : ℚ)
      (times : s.clock ≤ fastAt ∧ fastAt ≤ checkedAt ∧ checkedAt ≤ startedAt)
      (next : p.begin s symbol fastAt checkedAt startedAt = (t, es)) :
      Stepped s t es (.call symbol fastAt checkedAt startedAt)
  | resume (id : Nat) (symbol : Text) (lock : AsyncLock) (checkedAt startedAt : ℚ)
      (waits : s.calls[id]? = some ⟨symbol, .waiting⟩)
      (turn : (s.locks symbol).resume? id = some lock)
      (times : s.clock ≤ checkedAt ∧ checkedAt ≤ startedAt)
      (next : p.underLock { s with clock := startedAt } id symbol lock checkedAt startedAt =
        (t, es)) :
      Stepped s t es (.resume id checkedAt startedAt)
  | fetched (id : Nat) (symbol : Text) (stale : Option CacheEntry)
      (outcome : Except Exn (List Text)) (completedAt readAt : ℚ)
      (flies : s.calls[id]? = some ⟨symbol, .fetching stale⟩)
      (times : s.clock ≤ completedAt ∧ completedAt ≤ readAt)
      (next : land s id symbol stale outcome completedAt readAt = (t, es)) :
      Stepped s t es (.fetched id outcome completedAt readAt)

theorem stepped {p : CachingNewsProvider} {s t : NewsState} {l : NewsLabel}
    {es : List FetchEvent} (h : p.step s l = some (t, es)) : p.Stepped s t es l := by
  cases l with
  | call symbol fastAt checkedAt startedAt =>
      simp only [step, Option.ite_none_right_eq_some, Option.some.injEq] at h
      exact .call _ _ _ _ h.1 h.2
  | resume id checkedAt startedAt =>
      simp only [step] at h
      split at h
      · rename_i symbol hcall
        split at h
        · rename_i lock hresume
          simp only [Option.ite_none_right_eq_some, Option.some.injEq] at h
          exact .resume _ _ _ _ _ hcall hresume h.1 h.2
        · cases h
      · cases h
  | fetched id outcome completedAt readAt =>
      simp only [step] at h
      split at h
      · rename_i symbol stale hcall
        simp only [Option.ite_none_right_eq_some, Option.some.injEq] at h
        exact .fetched _ _ _ _ _ _ hcall h.1 h.2
      · cases h

end CachingNewsProvider

end NexusBackend
