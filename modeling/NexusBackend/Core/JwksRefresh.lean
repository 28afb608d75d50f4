import NexusBackend.Core.Security
import NexusBackend.Library.AsyncLock
import NexusBackend.Library.Transition

/-!
`JwksCache.get_key` called by any number of coroutines: the lock, and a refresh cut at its
awaits.

A call runs in one step up to its next await. The monotonic clock is read where the code
reads it and does not go back. The connection of a refresh is closed before the cache is
written, whether the refresh has failed or not. A call may be cancelled at any await.
Logging is left out, and `α` is what the caller keeps for the time after the call.
-/
namespace NexusBackend

open Python Transition

/-! ### A refresh in pieces -/

/-- The arguments of the constructor, and how the interpreter prints. -/
structure JwksConfig where
  settings : AuthSettings
  ttl : ℚ := JwksCache.ttlSeconds
  printing : Json.Printing

namespace JwksCache

/-- `_refresh` up to its first await: the address of the discovery document. -/
def discoveryUrl (settings : AuthSettings) : Except Exn Text :=
  if settings.entraTenantId = [] then
    raise .runtimeError (text "ENTRA_TENANT_ID not configured")
  else .ok (text "https://login.microsoftonline.com/" ++ settings.entraTenantId ++
    text "/v2.0/.well-known/openid-configuration")

/-- The address of the keys in the discovery document. -/
def jwksUri (oidc : Json) : Except Exn Json := do
  match (← oidc.dictGet (text "jwks_uri")).filter Json.truthy with
  | none => raise .runtimeError (text "OIDC discovery missing jwks_uri")
  | some uri => return uri

/-- The cache that the two documents make. -/
def ofDocuments (settings : AuthSettings) (oidc jwks : Json) (now : ℚ) :
    Except Exn JwksCache := do
  let items ← ((← jwks.dictGet (text "keys")).getD (.arr [])).iterate
  return {
    keys := ← items.foldlM addKey []
    issuer := Json.orElse (← oidc.dictGet (text "issuer")) (.str settings.resolvedEntraIssuer)
    fetchedAt := now }

theorem refresh_eq (settings : AuthSettings) (world : AuthWorld) :
    refresh settings world = (do
      let url ← discoveryUrl settings
      let oidc ← world.discovery url
      let uri ← jwksUri oidc
      let jwks ← world.keySet uri
      ofDocuments settings oidc jwks world.refreshedAt) := by
  simp only [refresh, discoveryUrl]
  by_cases htenant : settings.entraTenantId = []
  · rw [if_pos htenant, if_pos htenant]
    rfl
  · rw [if_neg htenant, if_neg htenant, ok_bind]
    congr 1
    funext oidc
    simp only [jwksUri]
    cases oidc.dictGet (text "jwks_uri") with
    | error e => rfl
    | ok uri =>
        simp only [ok_bind]
        cases uri.filter Json.truthy <;> rfl

/-- `_is_fresh`. -/
def isFreshFor (ttl : ℚ) (cache : JwksCache) (now : ℚ) : Bool :=
  !cache.keys.isEmpty && decide (now - cache.fetchedAt < ttl)

/-- The key of a fresh cache: `kid in self._keys and self._is_fresh()`. -/
def found? (ttl : ℚ) (cache : JwksCache) (kid : Json) (now : ℚ) : Except Exn (Option Json) :=
  (Option.filter fun _ => cache.isFreshFor ttl now) <$> cache.lookup kid

/-- What a refreshed cache answers. -/
def requireKey (pr : Json.Printing) (cache : JwksCache) (kid : Json) : Except Exn Json := do
  match ← cache.lookup kid with
  | some key => return key
  | none =>
      raise .keyError (text "kid " ++ kid.repr pr.printable ++ text " not present in Entra JWKS")

end JwksCache

/-! ### The calls and their steps -/

/-- Where a call stands: at the lock, at one of the two documents, at the closing of the
connection with what the `with` block came to (nothing where it was cancelled), or at its
end. -/
inductive GetKeyPhase
  | waiting
  | awaitingDiscovery
  | awaitingKeySet (oidc : Json)
  | closing (body : Option (Except Exn (Json × Json)))
  | done

structure GetKeyCall (α : Type) where
  kid : Json
  kept : α
  phase : GetKeyPhase

/-- What a call comes to, with the cache and the clock at that moment. -/
structure KeyAnswer (α : Type) where
  kid : Json
  kept : α
  result : Except Exn Json
  cache : JwksCache
  now : ℚ

inductive JwksEvent (α : Type)
  | refreshStarted (id : Nat) (kid : Json) (now : ℚ)
  | refreshed (id : Nat) (cache : JwksCache)
  | refreshFailed (id : Nat) (e : Option Exn)
  | answered (id : Nat) (answer : KeyAnswer α)

/-- A new call, with its readings of the clock; a waiter that is woken; the answers to the
two requests; the closing of the connection; or a cancellation. -/
inductive JwksLabel (α : Type)
  | call (kid : Json) (kept : α) (fastAt lockedAt : ℚ)
  | resume (id : Nat) (lockedAt : ℚ)
  | discovered (id : Nat) (answer : Except Exn Json)
  | keySetFetched (id : Nat) (answer : Except Exn Json)
  | clientClosed (id : Nat) (closing : Except Exn Unit) (now : ℚ)
  | cancel (id : Nat)

structure JwksState (α : Type) where
  cache : JwksCache := {}
  lock : AsyncLock := {}
  calls : List (GetKeyCall α) := []
  clock : ℚ := 0

namespace JwksState

variable {α : Type}

/-- The state of a new cache. -/
def initial (clock : ℚ) : JwksState α := { clock := clock }

def setPhase (s : JwksState α) (id : Nat) (c : GetKeyCall α) (phase : GetKeyPhase) :
    JwksState α :=
  { s with calls := s.calls.set id { c with phase } }

def releaseLock (s : JwksState α) : JwksState α := { s with lock := s.lock.release }

end JwksState

namespace JwksConfig

variable {α : Type} (cfg : JwksConfig)

/-- A call that returns or raises. -/
def answer (s : JwksState α) (id : Nat) (c : GetKeyCall α) (result : Except Exn Json)
    (now : ℚ) : JwksState α × List (JwksEvent α) :=
  (s.setPhase id c .done, [.answered id ⟨c.kid, c.kept, result, s.cache, now⟩])

/-- A refresh that fails: the error leaves the lock and the call. -/
def failRefresh (s : JwksState α) (id : Nat) (c : GetKeyCall α) (e : Exn) (now : ℚ) :
    JwksState α × List (JwksEvent α) :=
  ((answer s id c (.error e) now).1.releaseLock,
    .refreshFailed id (some e) :: (answer s id c (.error e) now).2)

/-- A refresh that is cancelled; its call answers nobody. -/
def cancelRefresh (s : JwksState α) (id : Nat) (c : GetKeyCall α) :
    JwksState α × List (JwksEvent α) :=
  ((s.setPhase id c .done).releaseLock, [.refreshFailed id none])

/-- Under the lock, up to the next await. -/
def underLock (s : JwksState α) (id : Nat) (c : GetKeyCall α) (lock : AsyncLock) (now : ℚ) :
    JwksState α × List (JwksEvent α) :=
  let locked := { s with lock := lock }
  match s.cache.found? cfg.ttl c.kid now with
  | .error e =>
      ((answer locked id c (.error e) now).1.releaseLock, (answer locked id c (.error e) now).2)
  | .ok (some key) =>
      ((answer locked id c (.ok key) now).1.releaseLock, (answer locked id c (.ok key) now).2)
  | .ok none =>
      match JwksCache.discoveryUrl cfg.settings with
      | .error e =>
          ((failRefresh locked id c e now).1,
            .refreshStarted id c.kid now :: (failRefresh locked id c e now).2)
      | .ok _ => (locked.setPhase id c .awaitingDiscovery, [.refreshStarted id c.kid now])

/-- A call up to its first await. -/
def begin (s : JwksState α) (kid : Json) (kept : α) (fastAt lockedAt : ℚ) :
    JwksState α × List (JwksEvent α) :=
  let id := s.calls.length
  let c : GetKeyCall α := ⟨kid, kept, .waiting⟩
  let arrived := { s with calls := s.calls ++ [c], clock := lockedAt }
  match s.cache.found? cfg.ttl kid fastAt with
  | .error e => answer arrived id c (.error e) fastAt
  | .ok (some key) => answer arrived id c (.ok key) fastAt
  | .ok none =>
      match s.lock.acquire? with
      | some lock => cfg.underLock arrived id c lock lockedAt
      | none => ({ arrived with lock := s.lock.enqueue id }, [])

/-- From the closed connection to the end of the call. -/
def land (s : JwksState α) (id : Nat) (c : GetKeyCall α)
    (body : Option (Except Exn (Json × Json))) (closing : Except Exn Unit) (now : ℚ) :
    JwksState α × List (JwksEvent α) :=
  match closing, body with
  | .error e, _ => failRefresh s id c e now
  | .ok (), none => cancelRefresh s id c
  | .ok (), some (.error e) => failRefresh s id c e now
  | .ok (), some (.ok (oidc, jwks)) =>
      match JwksCache.ofDocuments cfg.settings oidc jwks now with
      | .error e => failRefresh s id c e now
      | .ok cache =>
          let stored := { s with cache := cache }
          let out := answer stored id c (cache.requireKey cfg.printing c.kid) now
          (out.1.releaseLock, .refreshed id cache :: out.2)

/-- What follows the discovery document: the second request, or the end of the block. -/
def afterDiscovery (answer : Except Exn Json) : GetKeyPhase :=
  match answer >>= fun oidc => (fun _ => oidc) <$> JwksCache.jwksUri oidc with
  | .ok oidc => .awaitingKeySet oidc
  | .error e => .closing (some (.error e))

def cancel (s : JwksState α) (id : Nat) (c : GetKeyCall α) :
    Option (JwksState α × List (JwksEvent α)) :=
  match c.phase with
  | .waiting => some ({ s.setPhase id c .done with lock := s.lock.withdraw id }, [])
  | .awaitingDiscovery | .awaitingKeySet _ => some (s.setPhase id c (.closing none), [])
  | .closing _ => some (cancelRefresh s id c)
  | .done => none

def step (s : JwksState α) : JwksLabel α → Option (JwksState α × List (JwksEvent α))
  | .call kid kept fastAt lockedAt =>
      if s.clock ≤ fastAt ∧ fastAt ≤ lockedAt then
        some (cfg.begin s kid kept fastAt lockedAt)
      else none
  | .resume id lockedAt => do
      let c ← s.calls[id]?
      match c.phase with
      | .waiting =>
          let lock ← s.lock.resume? id
          if s.clock ≤ lockedAt then
            some (cfg.underLock { s with clock := lockedAt } id c lock lockedAt)
          else none
      | _ => none
  | .discovered id answer => do
      let c ← s.calls[id]?
      match c.phase with
      | .awaitingDiscovery => some (s.setPhase id c (afterDiscovery answer), [])
      | _ => none
  | .keySetFetched id answer => do
      let c ← s.calls[id]?
      match c.phase with
      | .awaitingKeySet oidc =>
          some (s.setPhase id c (.closing (some ((fun jwks => (oidc, jwks)) <$> answer))), [])
      | _ => none
  | .clientClosed id closing now => do
      let c ← s.calls[id]?
      match c.phase with
      | .closing body =>
          if s.clock ≤ now then some (cfg.land { s with clock := now } id c body closing now)
          else none
      | _ => none
  | .cancel id => do
      let c ← s.calls[id]?
      cancel s id c

def getKey : Machine (JwksState α) (JwksLabel α) (JwksEvent α) := ⟨cfg.step⟩

end JwksConfig
end NexusBackend
