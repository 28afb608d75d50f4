import NexusBackend.Core.JwksRefresh
import Mathlib.Tactic.Linarith

/-!
The signing keys over every interleaving of `get_key`: what a key that is returned comes
from, how many refreshes there are, and what a refresh that fails leaves behind.

The events of a run carry the argument. An event answers to the ones before it: a refresh
starts only where the cache as it then stands has no answer, and a call is answered from
that cache.
-/
namespace NexusBackend

open Python Transition Machine

variable {α : Type}

/-! ### Counting refreshes -/

namespace JwksEvent

def isStart : JwksEvent α → Bool
  | refreshStarted .. => true
  | _ => false

def isEnd : JwksEvent α → Bool
  | refreshed .. => true
  | refreshFailed .. => true
  | _ => false

def startedBy (id : Nat) : JwksEvent α → Bool
  | refreshStarted i _ _ => i = id
  | _ => false

/-- The call that refreshes after the event. -/
def track (flying : Option Nat) : JwksEvent α → Option Nat
  | refreshStarted id _ _ => some id
  | refreshed _ _ => none
  | refreshFailed _ _ => none
  | answered _ _ => flying

/-- The cache after the event. -/
def replay (cache : JwksCache) : JwksEvent α → JwksCache
  | refreshed _ stored => stored
  | _ => cache

/-- The readings of the clock lie between these two. -/
def Within (first last : ℚ) : JwksEvent α → Prop
  | refreshStarted _ _ now => first ≤ now ∧ now ≤ last
  | refreshed _ cache => first ≤ cache.fetchedAt ∧ cache.fetchedAt ≤ last
  | _ => True

theorem Within.mono {first last later : ℚ} {e : JwksEvent α} (h : e.Within first last)
    (hle : last ≤ later) : e.Within first later := by
  cases e with
  | refreshStarted id kid now => exact ⟨h.1, h.2.trans hle⟩
  | refreshed id cache => exact ⟨h.1, h.2.trans hle⟩
  | refreshFailed id e => trivial
  | answered id answer => trivial

end JwksEvent

def starts (tr : List (JwksEvent α)) : Nat := tr.countP JwksEvent.isStart

def startsOf (id : Nat) (tr : List (JwksEvent α)) : Nat := tr.countP (JwksEvent.startedBy id)

/-- The call whose refresh the events leave in flight. -/
def flyingAfter (tr : List (JwksEvent α)) : Option Nat := tr.foldl JwksEvent.track none

/-- What the refreshes of a run leave of the cache it starts with. -/
def lastCache (kept : JwksCache) (tr : List (JwksEvent α)) : JwksCache :=
  tr.foldl JwksEvent.replay kept

theorem starts_concat (tr : List (JwksEvent α)) (e : JwksEvent α) :
    starts (tr ++ [e]) = starts tr + e.isStart.toNat := by
  rw [starts, List.countP_append, List.countP_singleton]
  cases e.isStart <;> rfl

theorem startsOf_concat (id : Nat) (tr : List (JwksEvent α)) (e : JwksEvent α) :
    startsOf id (tr ++ [e]) = startsOf id tr + (e.startedBy id).toNat := by
  rw [startsOf, List.countP_append, List.countP_singleton]
  cases e.startedBy id <;> rfl

theorem flyingAfter_concat (tr : List (JwksEvent α)) (e : JwksEvent α) :
    flyingAfter (tr ++ [e]) = e.track (flyingAfter tr) := by
  rw [flyingAfter, List.foldl_append]
  rfl

theorem lastCache_concat (kept : JwksCache) (tr : List (JwksEvent α)) (e : JwksEvent α) :
    lastCache kept (tr ++ [e]) = e.replay (lastCache kept tr) := by
  rw [lastCache, List.foldl_append]
  rfl

/-- The cache is the first one, or some refresh has stored it. -/
theorem lastCache_cases (kept : JwksCache) (tr : List (JwksEvent α)) :
    lastCache kept tr = kept ∨ ∃ id, .refreshed id (lastCache kept tr) ∈ tr := by
  induction tr using List.reverseRecOn with
  | nil => exact .inl rfl
  | append_singleton tr e ih =>
      rw [lastCache_concat]
      have hold : lastCache kept tr = kept ∨ ∃ id, .refreshed id (lastCache kept tr) ∈ tr ++ [e] :=
        ih.imp id fun ⟨id, h⟩ => ⟨id, List.mem_append_left _ h⟩
      cases e with
      | refreshed id cache =>
          exact .inr ⟨id, List.mem_append_right _ (List.mem_singleton_self _)⟩
      | refreshStarted _ _ _ => exact hold
      | refreshFailed _ _ => exact hold
      | answered _ _ => exact hold

theorem JwksCache.lookup_nonempty {kid key : Json} {cache : JwksCache}
    (h : cache.lookup kid = .ok (some key)) : cache.keys ≠ [] := by
  intro hnil
  rw [JwksCache.lookup, hnil] at h
  cases hkid : kid.hashKey with
  | error e =>
      rw [hkid] at h
      cases h
  | ok id =>
      rw [hkid] at h
      cases h

/-! ### What an event answers to -/

namespace JwksConfig

variable (cfg : JwksConfig)

/-- The cache that the provider's documents made at the moment it carries. -/
def Fetched (cache : JwksCache) : Prop :=
  ∃ oidc jwks, JwksCache.ofDocuments cfg.settings oidc jwks cache.fetchedAt = .ok cache

/-- The `KeyError` of a kid that no key has. -/
def missingKey (kid : Json) : Exn :=
  ⟨.keyError, text "kid " ++ kid.repr cfg.printing.printable ++
    text " not present in Entra JWKS"⟩

/-- A key comes from a fresh cache. An error is that of the lookup, or that of the call's own
refresh, or the kid is in no key of what that refresh fetched. -/
def Answers (past : List (JwksEvent α)) (id : Nat) (a : KeyAnswer α) : Prop :=
  match a.result with
  | .ok key => a.cache.lookup a.kid = .ok (some key) ∧ a.cache.fetchedAt ≤ a.now ∧
      a.now - a.cache.fetchedAt < cfg.ttl
  | .error e => a.cache.lookup a.kid = .error e ∨ .refreshFailed id (some e) ∈ past ∨
      .refreshed id a.cache ∈ past ∧ a.cache.lookup a.kid = .ok none ∧ e = cfg.missingKey a.kid

def Justified (kept : JwksCache) (past : List (JwksEvent α)) : JwksEvent α → Prop
  | .refreshStarted id kid now => (lastCache kept past).found? cfg.ttl kid now = .ok none ∧
      flyingAfter past = none ∧ startsOf id past = 0
  | .refreshed id cache => cfg.Fetched cache ∧ flyingAfter past = some id
  | .refreshFailed id _ => flyingAfter past = some id
  | .answered id a => a.cache = lastCache kept past ∧ cfg.Answers past id a

end JwksConfig

/-! ### The invariant -/

namespace GetKeyPhase

def isWaiting : GetKeyPhase → Bool
  | waiting => true
  | _ => false

def isRefreshing : GetKeyPhase → Bool
  | awaitingDiscovery => true
  | awaitingKeySet _ => true
  | closing _ => true
  | _ => false

end GetKeyPhase

namespace JwksState

/-- The call has a refresh in flight. -/
def refreshingAt (s : JwksState α) (id : Nat) : Bool :=
  (s.calls[id]?).any fun c => c.phase.isRefreshing

/-- There is no such call yet, or it has never left the lock. -/
def untouchedAt (s : JwksState α) (id : Nat) : Bool :=
  (s.calls[id]?).all fun c => c.phase.isWaiting

def InFlight (s : JwksState α) (id : Nat) : Prop := s.refreshingAt id = true

/-- No call is in progress. -/
structure Idle (s : JwksState α) : Prop where
  lock : s.lock = {}
  calls : ∀ c ∈ s.calls, c.phase = .done

theorem Idle.refreshingAt {s : JwksState α} (h : s.Idle) (id : Nat) :
    s.refreshingAt id = false := by
  rw [JwksState.refreshingAt]
  cases hc : s.calls[id]? with
  | none => rfl
  | some c =>
      rw [Option.any_some, h.calls c (List.mem_of_getElem? hc)]
      rfl

end JwksState

namespace JwksConfig

variable {cfg : JwksConfig}

/-- What holds between any two awaits of a run from `s₀` whose calls are all in `K`, where
`flying` is the call that refreshes. -/
structure Sound (cfg : JwksConfig) (K : Json → α → Prop) (s₀ s : JwksState α)
    (tr : List (JwksEvent α)) (flying : Option Nat) : Prop where
  grounded : Grounded (cfg.Justified s₀.cache) [] tr
  cache : s.cache = lastCache s₀.cache tr
  stamped : s.cache.keys = [] ∨ s.cache.fetchedAt ≤ s.clock
  locked : s.lock.locked = flying.isSome
  tracked : flyingAfter tr = flying
  refreshing : ∀ id, s.refreshingAt id = decide (flying = some id)
  untouched : ∀ id, s.untouchedAt id = true → startsOf id tr = 0
  asked : ∀ id kid now, .refreshStarted id kid now ∈ tr → ∃ kept, K kid kept
  pending : ∀ c ∈ s.calls, c.phase = .done ∨ K c.kid c.kept
  answers : ∀ id a, .answered id a ∈ tr → K a.kid a.kept
  within : ∀ e ∈ tr, e.Within s₀.clock s.clock
  late : s₀.clock ≤ s.clock

variable {K : Json → α → Prop} {s₀ s : JwksState α} {tr : List (JwksEvent α)}
  {flying : Option Nat} {id : Nat} {c : GetKeyCall α}

theorem sound_of_idle (cfg : JwksConfig) (h : s.Idle)
    (hstamped : s.cache.keys = [] ∨ s.cache.fetchedAt ≤ s.clock) : cfg.Sound K s s [] none where
  grounded := trivial
  cache := rfl
  stamped := hstamped
  locked := by
    rw [h.lock]
    rfl
  tracked := rfl
  refreshing := h.refreshingAt
  untouched := fun _ _ => rfl
  asked := nofun
  pending := fun c hc => .inl (h.calls c hc)
  answers := nofun
  within := nofun
  late := le_rfl

theorem Sound.tick (h : cfg.Sound K s₀ s tr flying) {now : ℚ} (hle : s.clock ≤ now) :
    cfg.Sound K s₀ { s with clock := now } tr flying :=
  { h with
    stamped := h.stamped.imp_right hle.trans'
    within := fun e he => (h.within e he).mono hle
    late := h.late.trans hle }

/-- A lock that changes hands without being taken or freed. -/
theorem Sound.setLock (h : cfg.Sound K s₀ s tr flying) {lock : AsyncLock}
    (hlock : lock.locked = s.lock.locked) : cfg.Sound K s₀ { s with lock := lock } tr flying :=
  { h with locked := hlock.trans h.locked }

theorem Sound.arrive (h : cfg.Sound K s₀ s tr flying) {kid : Json} {kept : α} (hK : K kid kept) :
    cfg.Sound K s₀ { s with calls := s.calls ++ [⟨kid, kept, .waiting⟩] } tr flying := by
  have hget (i : Nat) : (s.calls ++ [(⟨kid, kept, .waiting⟩ : GetKeyCall α)])[i]? =
      if i = s.calls.length then some ⟨kid, kept, .waiting⟩ else s.calls[i]? := by
    rw [List.getElem?_append]
    split_ifs with hlt heq heq
    · omega
    · rfl
    · subst heq
      simp
    · rw [List.getElem?_eq_none (by simp; omega), List.getElem?_eq_none (by omega)]
  have hnew : s.calls[s.calls.length]? = none := List.getElem?_eq_none le_rfl
  exact { h with
    refreshing := by
      intro i
      rw [← h.refreshing, JwksState.refreshingAt, hget, JwksState.refreshingAt]
      split_ifs with heq
      · rw [heq, hnew]
        rfl
      · rfl
    untouched := by
      intro i hi
      apply h.untouched
      rw [JwksState.untouchedAt, hget] at hi
      split_ifs at hi with heq
      · rw [JwksState.untouchedAt, heq, hnew]
        rfl
      · exact hi
    pending := by
      intro d hd
      rcases List.mem_append.mp hd with hd | hd
      · exact h.pending d hd
      · rw [List.mem_singleton.mp hd]
        exact .inr hK }

theorem getElem?_setPhase (hc : s.calls[id]? = some c) (phase : GetKeyPhase) (i : Nat) :
    (s.setPhase id c phase).calls[i]? =
      if i = id then some { c with phase } else s.calls[i]? := by
  rw [JwksState.setPhase, List.getElem?_set]
  by_cases h : i = id
  · subst h
    rw [if_pos rfl, if_pos rfl, if_pos (List.getElem?_eq_some_iff.mp hc).1]
  · rw [if_neg h, if_neg (Ne.symm h)]

theorem refreshingAt_setPhase (hc : s.calls[id]? = some c) (phase : GetKeyPhase) (i : Nat) :
    (s.setPhase id c phase).refreshingAt i =
      if i = id then phase.isRefreshing else s.refreshingAt i := by
  rw [JwksState.refreshingAt, getElem?_setPhase hc]
  split_ifs
  · rfl
  · rfl

theorem untouchedAt_setPhase (hc : s.calls[id]? = some c) (phase : GetKeyPhase) (i : Nat) :
    (s.setPhase id c phase).untouchedAt i =
      if i = id then phase.isWaiting else s.untouchedAt i := by
  rw [JwksState.untouchedAt, getElem?_setPhase hc]
  split_ifs
  · rfl
  · rfl

theorem Sound.pending_setPhase (h : cfg.Sound K s₀ s tr flying) {phase : GetKeyPhase}
    (hphase : phase = .done ∨ K c.kid c.kept) :
    ∀ d ∈ (s.setPhase id c phase).calls, d.phase = .done ∨ K d.kid d.kept := by
  intro d hd
  rcases List.mem_or_eq_of_mem_set hd with hd | rfl
  · exact h.pending d hd
  · exact hphase

theorem Sound.call_mem (h : cfg.Sound K s₀ s tr flying) (hc : s.calls[id]? = some c)
    (hp : c.phase ≠ .done) : K c.kid c.kept :=
  (h.pending c (List.mem_of_getElem? hc)).resolve_left hp

theorem Sound.call_of_waiting (h : cfg.Sound K s₀ s tr flying) (hc : s.calls[id]? = some c)
    (hw : c.phase.isWaiting = true) : K c.kid c.kept := by
  refine h.call_mem hc fun hdone => ?_
  rw [hdone] at hw
  cases hw

theorem Sound.call_of_refreshing (h : cfg.Sound K s₀ s tr flying) (hc : s.calls[id]? = some c)
    (hr : c.phase.isRefreshing = true) : K c.kid c.kept := by
  refine h.call_mem hc fun hdone => ?_
  rw [hdone] at hr
  cases hr

/-- A call leaves the lock without an answer of the cache being taken down. -/
theorem Sound.settle (h : cfg.Sound K s₀ s tr flying) (hc : s.calls[id]? = some c)
    (hw : c.phase.isWaiting = true) : cfg.Sound K s₀ (s.setPhase id c .done) tr flying := by
  have hidle : s.refreshingAt id = false := by
    rw [JwksState.refreshingAt, hc]
    cases hp : c.phase <;> simp_all [GetKeyPhase.isWaiting, GetKeyPhase.isRefreshing]
  exact { h with
    refreshing := by
      intro i
      rw [refreshingAt_setPhase hc, ← h.refreshing]
      split_ifs with heq
      · rw [heq, hidle]
        rfl
      · rfl
    untouched := by
      intro i hi
      rw [untouchedAt_setPhase hc] at hi
      split_ifs at hi
      · cases hi
      · exact h.untouched i hi
    pending := h.pending_setPhase (.inl rfl) }

/-- A refresh goes on. -/
theorem Sound.advance (h : cfg.Sound K s₀ s tr flying) (hc : s.calls[id]? = some c)
    (hr : c.phase.isRefreshing = true) {phase : GetKeyPhase} (hp : phase.isRefreshing = true) :
    cfg.Sound K s₀ (s.setPhase id c phase) tr flying := by
  have hold : s.refreshingAt id = true := by
    rw [JwksState.refreshingAt, hc]
    exact hr
  exact { h with
    refreshing := by
      intro i
      rw [refreshingAt_setPhase hc, ← h.refreshing]
      split_ifs with heq
      · rw [heq, hold, hp]
      · rfl
    untouched := by
      intro i hi
      rw [untouchedAt_setPhase hc] at hi
      split_ifs at hi
      · cases phase <;> simp_all [GetKeyPhase.isWaiting, GetKeyPhase.isRefreshing]
      · exact h.untouched i hi
    pending := by
      apply h.pending_setPhase
      exact .inr (h.call_of_refreshing hc hr) }

/-- What is said of each event of the log, with one event more. -/
theorem Sound.logged (h : cfg.Sound K s₀ s tr flying) {e : JwksEvent α}
    (hasked : ∀ id kid now, e = .refreshStarted id kid now → ∃ kept, K kid kept)
    (hanswer : ∀ id a, e = .answered id a → K a.kid a.kept) (hwithin : e.Within s₀.clock s.clock) :
    (∀ id kid now, .refreshStarted id kid now ∈ tr ++ [e] → ∃ kept, K kid kept) ∧
      (∀ id a, .answered id a ∈ tr ++ [e] → K a.kid a.kept) ∧
      ∀ e' ∈ tr ++ [e], e'.Within s₀.clock s.clock := by
  refine ⟨?_, ?_, ?_⟩
  · intro i kid now hmem
    cases List.mem_append.mp hmem with
    | inl hmem => exact h.asked i kid now hmem
    | inr hmem => exact hasked i kid now (List.mem_singleton.mp hmem).symm
  · intro i a hmem
    cases List.mem_append.mp hmem with
    | inl hmem => exact h.answers i a hmem
    | inr hmem => exact hanswer i a (List.mem_singleton.mp hmem).symm
  · intro e' hmem
    cases List.mem_append.mp hmem with
    | inl hmem => exact h.within e' hmem
    | inr hmem =>
        rw [List.mem_singleton.mp hmem]
        exact hwithin

/-- While the lock is free nothing is in flight. -/
theorem Sound.flying_eq_none (h : cfg.Sound K s₀ s tr flying) (hfree : s.lock.locked = false) :
    flying = none := by
  rw [← Option.not_isSome_iff_eq_none, ← h.locked, hfree]
  exact Bool.false_ne_true

/-- A refresh starts under the lock that its call has just taken. -/
theorem Sound.start (h : cfg.Sound K s₀ s tr none) (hc : s.calls[id]? = some c)
    (hw : c.phase.isWaiting = true) {lock : AsyncLock} (hlock : lock.locked = true)
    (hmiss : s.cache.found? cfg.ttl c.kid s.clock = .ok none) :
    cfg.Sound K s₀ ({ s with lock := lock }.setPhase id c .awaitingDiscovery)
      (tr ++ [.refreshStarted id c.kid s.clock]) (some id) := by
  have hcalls : ({ s with lock := lock } : JwksState α).calls[id]? = some c := hc
  have huntouched : startsOf id tr = 0 := by
    apply h.untouched
    rw [JwksState.untouchedAt, hc]
    exact hw
  have hcall : K c.kid c.kept := h.call_of_waiting hc hw
  obtain ⟨hasked, hanswers, hwithin⟩ := h.logged (e := .refreshStarted id c.kid s.clock)
    (fun _ _ _ heq => by cases heq; exact ⟨_, hcall⟩) nofun ⟨h.late, le_rfl⟩
  refine {
    grounded := ?_
    cache := ?_
    stamped := h.stamped
    locked := hlock
    tracked := ?_
    refreshing := ?_
    untouched := ?_
    asked := hasked
    pending := h.pending_setPhase (.inr hcall)
    answers := hanswers
    within := hwithin
    late := h.late }
  · have hpast : cfg.Justified s₀.cache tr (.refreshStarted id c.kid s.clock) :=
      ⟨h.cache ▸ hmiss, h.tracked, huntouched⟩
    exact grounded_append.mpr ⟨h.grounded, hpast, trivial⟩
  · rw [lastCache_concat]
    exact h.cache
  · rw [flyingAfter_concat]
    rfl
  · intro i
    rw [refreshingAt_setPhase hcalls]
    split_ifs with heq
    · rw [heq]
      simp [GetKeyPhase.isRefreshing]
    · have hno : s.refreshingAt i = false := h.refreshing i
      change s.refreshingAt i = _
      rw [hno]
      simp [Ne.symm heq]
  · intro i hi
    rw [untouchedAt_setPhase hcalls] at hi
    split_ifs at hi with heq
    · cases hi
    · rw [startsOf_concat, h.untouched i hi]
      simp [JwksEvent.startedBy, Ne.symm heq]

/-- A refresh ends, well or badly, and the lock is free again. -/
theorem Sound.stop (h : cfg.Sound K s₀ s tr flying) (hc : s.calls[id]? = some c)
    (hr : c.phase.isRefreshing = true) {e : JwksEvent α} (hend : e.isEnd = true)
    (hj : flyingAfter tr = some id → cfg.Justified s₀.cache tr e)
    (hw : e.Within s₀.clock s.clock) :
    cfg.Sound K s₀ ({ s with cache := e.replay s.cache }.setPhase id c .done).releaseLock
      (tr ++ [e]) none := by
  have hcalls : ({ s with cache := e.replay s.cache } : JwksState α).calls[id]? = some c := hc
  have hold : s.refreshingAt id = true := by
    rw [JwksState.refreshingAt, hc]
    exact hr
  have hflying : flying = some id := by
    have hid := h.refreshing id
    rw [hold] at hid
    exact of_decide_eq_true hid.symm
  have hby (i : Nat) : e.startedBy i = false := by cases e <;> first | rfl | cases hend
  have hof (i : Nat) : startsOf i (tr ++ [e]) = startsOf i tr := by
    rw [startsOf_concat, hby]
    rfl
  have hothers (i : Nat) (hi : i ≠ id) : s.refreshingAt i = false := by
    rw [h.refreshing, hflying]
    simp [Ne.symm hi]
  obtain ⟨hasked, hanswers, hwithin⟩ := h.logged
    (fun _ _ _ heq => by rw [heq] at hend; cases hend)
    (fun _ _ heq => by rw [heq] at hend; cases hend) hw
  refine {
    grounded := grounded_append.mpr ⟨h.grounded, hj (h.tracked.trans hflying), trivial⟩
    cache := ?_
    stamped := ?_
    locked := rfl
    tracked := ?_
    refreshing := ?_
    untouched := ?_
    asked := hasked
    pending := h.pending_setPhase (.inl rfl)
    answers := hanswers
    within := hwithin
    late := h.late }
  · rw [lastCache_concat, ← h.cache]
    rfl
  · cases e with
    | refreshed id cache => exact .inr hw.2
    | refreshFailed id e => exact h.stamped
    | refreshStarted id kid now => cases hend
    | answered id a => cases hend
  · rw [flyingAfter_concat]
    cases e with
    | refreshed id cache => rfl
    | refreshFailed id e => rfl
    | refreshStarted id kid now => cases hend
    | answered id a => cases hend
  · intro i
    change (JwksState.setPhase _ id c .done).refreshingAt i = _
    rw [refreshingAt_setPhase hcalls]
    split_ifs with heq
    · rfl
    · exact hothers i heq
  · intro i hi
    change (JwksState.setPhase _ id c .done).untouchedAt i = true at hi
    rw [untouchedAt_setPhase hcalls] at hi
    split_ifs at hi
    · cases hi
    · rw [hof]
      exact h.untouched i hi

/-- An answer given from the cache as it stands. -/
theorem Sound.answered (h : cfg.Sound K s₀ s tr flying) {a : KeyAnswer α}
    (hcall : K a.kid a.kept) (hcache : a.cache = s.cache) (ha : cfg.Answers tr id a) :
    cfg.Sound K s₀ s (tr ++ [.answered id a]) flying := by
  obtain ⟨hasked, hanswers, hwithin⟩ := h.logged (e := .answered id a) nofun
    (fun _ _ heq => by cases heq; exact hcall) trivial
  refine { h with
    grounded := grounded_append.mpr ⟨h.grounded, ⟨hcache.trans h.cache, ha⟩, trivial⟩
    cache := ?_
    tracked := ?_
    untouched := ?_
    asked := hasked
    answers := hanswers
    within := hwithin }
  · rw [lastCache_concat]
    exact h.cache
  · rw [flyingAfter_concat]
    exact h.tracked
  · intro i hi
    rw [startsOf_concat]
    exact h.untouched i hi

/-! ### What the cache answers -/

theorem found?_eq_some {ttl now : ℚ} {cache : JwksCache} {kid key : Json}
    (h : cache.found? ttl kid now = .ok (some key)) :
    cache.lookup kid = .ok (some key) ∧ now - cache.fetchedAt < ttl := by
  rw [JwksCache.found?] at h
  cases hlookup : cache.lookup kid with
  | error e =>
      rw [hlookup] at h
      cases h
  | ok found =>
      rw [hlookup] at h
      obtain ⟨rfl, hfresh⟩ := Option.filter_eq_some_iff.mp (Except.ok.inj h)
      simp only [JwksCache.isFreshFor, Bool.and_eq_true, decide_eq_true_eq] at hfresh
      exact ⟨rfl, hfresh.2⟩

theorem found?_eq_error {ttl now : ℚ} {cache : JwksCache} {kid : Json} {e : Exn}
    (h : cache.found? ttl kid now = .error e) : cache.lookup kid = .error e := by
  rw [JwksCache.found?] at h
  cases hlookup : cache.lookup kid with
  | error e' =>
      rw [hlookup] at h
      exact h
  | ok found =>
      rw [hlookup] at h
      cases h

/-- The answer of the cache where it has one. -/
theorem Sound.found (h : cfg.Sound K s₀ s tr flying) {kid key : Json} {kept : α} {now : ℚ}
    (hnow : s.clock ≤ now) (hfound : s.cache.found? cfg.ttl kid now = .ok (some key)) :
    cfg.Answers tr id ⟨kid, kept, .ok key, s.cache, now⟩ := by
  obtain ⟨hlookup, hyoung⟩ := found?_eq_some hfound
  have hstamped := h.stamped.resolve_left (JwksCache.lookup_nonempty hlookup)
  exact ⟨hlookup, hstamped.trans hnow, hyoung⟩

theorem ofDocuments_fetched {oidc jwks : Json} {now : ℚ} {cache : JwksCache}
    (h : JwksCache.ofDocuments cfg.settings oidc jwks now = .ok cache) :
    cfg.Fetched cache ∧ cache.fetchedAt = now := by
  have hdocs := h
  simp only [JwksCache.ofDocuments] at h
  obtain ⟨keys?, -, h⟩ := bind_eq_ok_iff.mp h
  obtain ⟨items, -, h⟩ := bind_eq_ok_iff.mp h
  obtain ⟨keys, -, h⟩ := bind_eq_ok_iff.mp h
  obtain ⟨issuer, -, h⟩ := bind_eq_ok_iff.mp h
  cases h
  exact ⟨⟨oidc, jwks, hdocs⟩, rfl⟩

/-! ### One step -/

theorem setPhase_setPhase (s : JwksState α) (id : Nat) (c : GetKeyCall α)
    (phase phase' : GetKeyPhase) :
    (s.setPhase id c phase).setPhase id { c with phase } phase' = s.setPhase id c phase' := by
  simp [JwksState.setPhase]

/-- A refresh that fails. -/
theorem Sound.fail (h : cfg.Sound K s₀ s tr flying) (hc : s.calls[id]? = some c)
    (hr : c.phase.isRefreshing = true) (e : Exn) (now : ℚ) :
    cfg.Sound K s₀ (failRefresh s id c e now).1 (tr ++ (failRefresh s id c e now).2) none := by
  have hstop := h.stop hc hr (e := .refreshFailed id (some e)) rfl (fun hfly => hfly) trivial
  have hanswer : cfg.Answers (tr ++ [.refreshFailed id (some e)]) id
      ⟨c.kid, c.kept, .error e, s.cache, now⟩ :=
    .inr (.inl (List.mem_append_right _ (List.mem_singleton_self _)))
  have hall := hstop.answered (h.call_of_refreshing hc hr) rfl hanswer
  rwa [List.append_assoc] at hall

theorem Sound.underLock (h : cfg.Sound K s₀ s tr none) (hc : s.calls[id]? = some c)
    (hw : c.phase.isWaiting = true) {lock : AsyncLock} (hlock : lock.locked = true) :
    ∃ next, cfg.Sound K s₀ (cfg.underLock s id c lock s.clock).1
      (tr ++ (cfg.underLock s id c lock s.clock).2) next := by
  have hcall := h.call_of_waiting hc hw
  have hback (a : KeyAnswer α) (hK : K a.kid a.kept) (hcache : a.cache = s.cache)
      (ha : cfg.Answers tr id a) :
      cfg.Sound K s₀ ({ s with lock := lock }.setPhase id c .done).releaseLock
        (tr ++ [.answered id a]) none := by
    have hfree : cfg.Sound K s₀ { s with lock := lock.release } tr none :=
      h.setLock h.locked.symm
    exact (hfree.settle hc hw).answered hK hcache ha
  simp only [JwksConfig.underLock]
  cases hfound : s.cache.found? cfg.ttl c.kid s.clock with
  | error e => exact ⟨none, hback _ hcall rfl (.inl (found?_eq_error hfound))⟩
  | ok found =>
      cases found with
      | some key => exact ⟨none, hback _ hcall rfl (h.found le_rfl hfound)⟩
      | none =>
          have hstart := h.start hc hw hlock hfound
          cases JwksCache.discoveryUrl cfg.settings with
          | ok url => exact ⟨some id, hstart⟩
          | error e =>
              have hat := getElem?_setPhase (s := { s with lock := lock }) hc .awaitingDiscovery id
              rw [if_pos rfl] at hat
              have hfail := hstart.fail hat rfl e s.clock
              simp only [failRefresh, answer, setPhase_setPhase, List.append_assoc] at hfail
              exact ⟨none, hfail⟩

theorem Sound.begin (h : cfg.Sound K s₀ s tr flying) {kid : Json} {kept : α} (hK : K kid kept)
    {fastAt lockedAt : ℚ} (hfast : s.clock ≤ fastAt) (hlocked : fastAt ≤ lockedAt) :
    ∃ next, cfg.Sound K s₀ (cfg.begin s kid kept fastAt lockedAt).1
      (tr ++ (cfg.begin s kid kept fastAt lockedAt).2) next := by
  have harrived := (h.arrive hK).tick (hfast.trans hlocked)
  have hc : (s.calls ++ [⟨kid, kept, .waiting⟩])[s.calls.length]? =
      some (⟨kid, kept, .waiting⟩ : GetKeyCall α) := List.getElem?_concat_length
  simp only [JwksConfig.begin]
  cases hfound : s.cache.found? cfg.ttl kid fastAt with
  | error e =>
      exact ⟨flying, (harrived.settle hc rfl).answered hK rfl (.inl (found?_eq_error hfound))⟩
  | ok found =>
      cases found with
      | some key => exact ⟨flying, (harrived.settle hc rfl).answered hK rfl (h.found hfast hfound)⟩
      | none =>
          cases hacquire : s.lock.acquire? with
          | none =>
              refine ⟨flying, ?_⟩
              rw [List.append_nil]
              exact harrived.setLock rfl
          | some lock =>
              obtain ⟨hfree, hheld⟩ := AsyncLock.acquire?_spec hacquire
              rw [h.flying_eq_none hfree] at harrived
              exact harrived.underLock hc rfl hheld

theorem Sound.land (hpos : 0 < cfg.ttl) (h : cfg.Sound K s₀ s tr flying)
    (hc : s.calls[id]? = some c) (hr : c.phase.isRefreshing = true)
    (body : Option (Except Exn (Json × Json))) (closing : Except Exn Unit) :
    cfg.Sound K s₀ (cfg.land s id c body closing s.clock).1
      (tr ++ (cfg.land s id c body closing s.clock).2) none := by
  match closing, body with
  | .error e, _ => exact h.fail hc hr e s.clock
  | .ok (), none =>
      exact h.stop hc hr (e := .refreshFailed id none) rfl (fun hfly => hfly) trivial
  | .ok (), some (.error e) => exact h.fail hc hr e s.clock
  | .ok (), some (.ok (oidc, jwks)) =>
      simp only [JwksConfig.land]
      cases hdocs : JwksCache.ofDocuments cfg.settings oidc jwks s.clock with
      | error e => exact h.fail hc hr e s.clock
      | ok cache =>
          obtain ⟨hfetched, hstamp⟩ := ofDocuments_fetched hdocs
          have hwithin : (JwksEvent.refreshed (α := α) id cache).Within s₀.clock s.clock :=
            ⟨hstamp ▸ h.late, hstamp.le⟩
          have hstop := h.stop hc hr (e := .refreshed id cache) rfl
            (fun hfly => ⟨hfetched, hfly⟩) hwithin
          have hanswer : cfg.Answers (tr ++ [.refreshed id cache]) id
              ⟨c.kid, c.kept, cache.requireKey cfg.printing c.kid, cache, s.clock⟩ := by
            simp only [Answers, JwksCache.requireKey]
            cases hlookup : cache.lookup c.kid with
            | error e => exact .inl rfl
            | ok found =>
                cases found with
                | none =>
                    have hmem : .refreshed id cache ∈ tr ++ [.refreshed id cache] :=
                      List.mem_append_right _ (List.mem_singleton_self _)
                    exact .inr (.inr ⟨hmem, rfl, rfl⟩)
                | some key =>
                    refine ⟨rfl, hstamp.le, ?_⟩
                    rwa [hstamp, sub_self]
          have hall := hstop.answered (h.call_of_refreshing hc hr) rfl hanswer
          rwa [List.append_assoc] at hall

theorem Sound.cancel (h : cfg.Sound K s₀ s tr flying) (hc : s.calls[id]? = some c)
    {s' : JwksState α} {es : List (JwksEvent α)} (hs : JwksConfig.cancel s id c = some (s', es)) :
    ∃ next, cfg.Sound K s₀ s' (tr ++ es) next := by
  rw [JwksConfig.cancel] at hs
  cases hp : c.phase with
  | waiting =>
      rw [hp] at hs
      cases hs
      rw [List.append_nil]
      have hw : c.phase.isWaiting = true := by rw [hp]; rfl
      exact ⟨flying, (h.settle hc hw).setLock rfl⟩
  | awaitingDiscovery =>
      rw [hp] at hs
      cases hs
      rw [List.append_nil]
      have hr : c.phase.isRefreshing = true := by rw [hp]; rfl
      exact ⟨flying, h.advance hc hr rfl⟩
  | awaitingKeySet oidc =>
      rw [hp] at hs
      cases hs
      rw [List.append_nil]
      have hr : c.phase.isRefreshing = true := by rw [hp]; rfl
      exact ⟨flying, h.advance hc hr rfl⟩
  | closing body =>
      rw [hp] at hs
      cases hs
      have hr : c.phase.isRefreshing = true := by rw [hp]; rfl
      exact ⟨none, h.stop hc hr (e := .refreshFailed id none) rfl (fun hfly => hfly) trivial⟩
  | done =>
      rw [hp] at hs
      cases hs

/-- A new call is in `K`. -/
def Asks (K : Json → α → Prop) : JwksLabel α → Prop
  | .call kid kept _ _ => K kid kept
  | _ => True

theorem Sound.step (hpos : 0 < cfg.ttl) {l : JwksLabel α} {s' : JwksState α}
    {es : List (JwksEvent α)} (hK : Asks K l) (h : cfg.Sound K s₀ s tr flying)
    (hs : cfg.step s l = some (s', es)) : ∃ next, cfg.Sound K s₀ s' (tr ++ es) next := by
  cases l with
  | call kid kept fastAt lockedAt =>
      rw [JwksConfig.step, Option.ite_none_right_eq_some] at hs
      obtain ⟨⟨hfast, hlocked⟩, hs⟩ := hs
      obtain ⟨rfl, rfl⟩ := Prod.ext_iff.mp (Option.some.inj hs)
      exact h.begin hK hfast hlocked
  | resume id lockedAt =>
      obtain ⟨c, hc, hs⟩ := Option.bind_eq_some_iff.mp hs
      cases hp : c.phase with
      | waiting =>
          rw [hp] at hs
          obtain ⟨lock, hresume, hs⟩ := Option.bind_eq_some_iff.mp hs
          rw [Option.ite_none_right_eq_some] at hs
          obtain ⟨hle, hs⟩ := hs
          obtain ⟨rfl, rfl⟩ := Prod.ext_iff.mp (Option.some.inj hs)
          obtain ⟨hfree, hheld⟩ := AsyncLock.resume?_spec hresume
          rw [h.flying_eq_none hfree] at h
          have hw : c.phase.isWaiting = true := by rw [hp]; rfl
          exact (h.tick hle).underLock hc hw hheld
      | _ =>
          rw [hp] at hs
          cases hs
  | discovered id answer =>
      obtain ⟨c, hc, hs⟩ := Option.bind_eq_some_iff.mp hs
      cases hp : c.phase with
      | awaitingDiscovery =>
          rw [hp] at hs
          cases hs
          rw [List.append_nil]
          have hr : c.phase.isRefreshing = true := by rw [hp]; rfl
          refine ⟨flying, h.advance hc hr ?_⟩
          rw [afterDiscovery]
          split <;> rfl
      | _ =>
          rw [hp] at hs
          cases hs
  | keySetFetched id answer =>
      obtain ⟨c, hc, hs⟩ := Option.bind_eq_some_iff.mp hs
      cases hp : c.phase with
      | awaitingKeySet oidc =>
          rw [hp] at hs
          cases hs
          rw [List.append_nil]
          have hr : c.phase.isRefreshing = true := by rw [hp]; rfl
          exact ⟨flying, h.advance hc hr rfl⟩
      | _ =>
          rw [hp] at hs
          cases hs
  | clientClosed id closing now =>
      obtain ⟨c, hc, hs⟩ := Option.bind_eq_some_iff.mp hs
      cases hp : c.phase with
      | closing body =>
          rw [hp, Option.ite_none_right_eq_some] at hs
          obtain ⟨hle, hs⟩ := hs
          obtain ⟨rfl, rfl⟩ := Prod.ext_iff.mp (Option.some.inj hs)
          have hr : c.phase.isRefreshing = true := by rw [hp]; rfl
          exact ⟨none, (h.tick hle).land hpos hc hr body closing⟩
      | _ =>
          rw [hp] at hs
          cases hs
  | cancel id =>
      obtain ⟨c, hc, hs⟩ := Option.bind_eq_some_iff.mp hs
      exact h.cancel hc hs

/-- Every run whose calls are all in `K` keeps the invariant. -/
theorem sound_run (hpos : 0 < cfg.ttl) {t : JwksState α} {ls : List (JwksLabel α)}
    (hidle : s.Idle) (hstamped : s.cache.keys = [] ∨ s.cache.fetchedAt ≤ s.clock)
    (hK : ∀ l ∈ ls, Asks K l) (hr : cfg.getKey.run s ls = some (t, tr)) :
    ∃ flying, cfg.Sound K s t tr flying := by
  have hkeep := run_invariant_along (m := cfg.getKey) (C := fun _ l => Asks K l)
    (I := fun s' tr' => ∃ flying, cfg.Sound K s s' tr' flying)
    (fun s' l s'' es tr' hl ⟨flying, h⟩ hs => h.step hpos hl hs)
    ⟨none, cfg.sound_of_idle hidle hstamped⟩ ((along_iff_forall hr).mpr hK) hr
  simpa using hkeep

end JwksConfig
end NexusBackend
