import NexusBackend.Library.ListHeap
import NexusBackend.News.StaleFallback

/-!
The caching provider with its lists as objects. A list that a call has returned, or that the
inner provider has handed in, is in the hands of others, who may overwrite it at any time.

Seen without addresses, and without what others write, it is the provider of `CachingProvider`.
-/
namespace NexusBackend

open Python Transition

/-- An entry holds a list, not what is in it. -/
structure SharedEntry where
  headlines : Nat
  fetchedAt : ℚ
deriving DecidableEq

/-- A call that has returned shows the list, and what it held then. -/
inductive SharedPhase
  | waiting
  | fetching (stale : Option SharedEntry)
  | returned (list : Nat) (headlines : List Text)
deriving DecidableEq

structure SharedCall where
  symbol : Text
  phase : SharedPhase
deriving DecidableEq

/-- The state with the lists there are, and those of them that are known outside. -/
structure SharedState where
  heap : ListHeap Text
  outside : List Nat
  cache : Text → Option SharedEntry
  locks : Text → AsyncLock
  hitCount : Nat
  missCount : Nat
  calls : List SharedCall
  clock : ℚ

/-- Besides the steps of the provider, whoever has a list may give it other contents. -/
inductive SharedLabel
  | news (l : NewsLabel)
  | overwrite (list : Nat) (headlines : List Text)

def SharedLabel.news? : SharedLabel → Option NewsLabel
  | .news l => some l
  | .overwrite _ _ => none

namespace SharedState

def initial (clock : ℚ) : SharedState :=
  ⟨.empty, [], fun _ => none, fun _ => {}, 0, 0, [], clock⟩

def setPhase (s : SharedState) (id : Nat) (symbol : Text) (phase : SharedPhase) : SharedState :=
  { s with calls := s.calls.set id ⟨symbol, phase⟩ }

def setLock (s : SharedState) (symbol : Text) (lock : AsyncLock) : SharedState :=
  { s with locks := Function.update s.locks symbol lock }

def setEntry (s : SharedState) (symbol : Text) (entry : SharedEntry) : SharedState :=
  { s with cache := Function.update s.cache symbol (some entry) }

/-- A new list, for the provider alone. -/
def alloc (s : SharedState) (headlines : List Text) : SharedState :=
  { s with heap := s.heap.alloc headlines }

/-- A new list that is known outside. -/
def give (s : SharedState) (headlines : List Text) : SharedState :=
  { s with heap := s.heap.alloc headlines, outside := s.heap.size :: s.outside }

/-- `return list(...)`. -/
def answer (s : SharedState) (id : Nat) (symbol : Text) (list : Nat) : SharedState :=
  let headlines := s.heap.read list
  (s.give headlines).setPhase id symbol (.returned s.heap.size headlines)

def hit (s : SharedState) (id : Nat) (symbol : Text) (entry : SharedEntry) : SharedState :=
  { s.answer id symbol entry.headlines with hitCount := s.hitCount + 1 }

def miss (s : SharedState) (id : Nat) (symbol : Text) (stale : Option SharedEntry) :
    SharedState :=
  { s.setPhase id symbol (.fetching stale) with missCount := s.missCount + 1 }

/-- The list that a fetch ends with: the inner provider's, or a new one where it has raised. -/
def handIn (s : SharedState) : Except Exn (List Text) → SharedState
  | .ok headlines => s.give headlines
  | .error _ => s.alloc []

end SharedState

namespace SharedLists

variable (p : CachingNewsProvider)

def fresh? (s : SharedState) (symbol : Text) (now : ℚ) : Option SharedEntry :=
  (s.cache symbol).filter fun entry => now - entry.fetchedAt < p.ttl

def underLock (s : SharedState) (id : Nat) (symbol : Text) (lock : AsyncLock)
    (checkedAt startedAt : ℚ) : SharedState × List FetchEvent :=
  match fresh? p s symbol checkedAt with
  | some entry => ((s.hit id symbol entry).setLock symbol lock.release, [])
  | none =>
      ((s.miss id symbol (s.cache symbol)).setLock symbol lock,
        [⟨symbol, .started id startedAt⟩])

def begin (s : SharedState) (symbol : Text) (fastAt checkedAt startedAt : ℚ) :
    SharedState × List FetchEvent :=
  let id := s.calls.length
  let arrived := { s with calls := s.calls ++ [⟨symbol, .waiting⟩], clock := startedAt }
  match fresh? p s symbol fastAt with
  | some entry => (arrived.hit id symbol entry, [])
  | none =>
      match (s.locks symbol).acquire? with
      | some lock => underLock p arrived id symbol lock checkedAt startedAt
      | none => (arrived.setLock symbol ((s.locks symbol).enqueue id), [])

/-- The list that is kept of what the fetch has ended with and what there was. -/
def keep (heap : ListHeap Text) (stale : Option SharedEntry) (list : Nat) : Nat :=
  match stale with
  | some entry =>
      if heap.read list = [] ∧ heap.read entry.headlines ≠ [] then entry.headlines else list
  | none => list

/-- The cache gets a copy of the list that is kept, and the caller another. -/
def store (s : SharedState) (id : Nat) (symbol : Text) (kept : Nat) (readAt : ℚ) : SharedState :=
  let stored := (s.alloc (s.heap.read kept)).setEntry symbol ⟨s.heap.size, readAt⟩
  (stored.answer id symbol kept).setLock symbol (s.locks symbol).release

def land (s : SharedState) (id : Nat) (symbol : Text) (stale : Option SharedEntry)
    (outcome : Except Exn (List Text)) (completedAt readAt : ℚ) : SharedState × List FetchEvent :=
  let landed := { s with clock := readAt }.handIn outcome
  (store landed id symbol (keep landed.heap stale s.heap.size) readAt,
    [⟨symbol, .completed id completedAt⟩])

def newsStep (s : SharedState) : NewsLabel → Option (SharedState × List FetchEvent)
  | .call symbol fastAt checkedAt startedAt =>
      if s.clock ≤ fastAt ∧ fastAt ≤ checkedAt ∧ checkedAt ≤ startedAt then
        some (begin p s symbol fastAt checkedAt startedAt)
      else none
  | .resume id checkedAt startedAt =>
      match s.calls[id]? with
      | some ⟨symbol, .waiting⟩ =>
          match (s.locks symbol).resume? id with
          | some lock =>
              if s.clock ≤ checkedAt ∧ checkedAt ≤ startedAt then
                some (underLock p { s with clock := startedAt } id symbol lock checkedAt startedAt)
              else none
          | none => none
      | _ => none
  | .fetched id outcome completedAt readAt =>
      match s.calls[id]? with
      | some ⟨symbol, .fetching stale⟩ =>
          if s.clock ≤ completedAt ∧ completedAt ≤ readAt then
            some (land s id symbol stale outcome completedAt readAt)
          else none
      | _ => none

def step (s : SharedState) : SharedLabel → Option (SharedState × List FetchEvent)
  | .news l => newsStep p s l
  | .overwrite list headlines =>
      if list ∈ s.outside then some ({ s with heap := s.heap.write list headlines }, []) else none

def recentHeadlines : Machine SharedState SharedLabel FetchEvent := ⟨step p⟩

/-! ### What a step can be -/

inductive Stepped (s t : SharedState) (es : List FetchEvent) : SharedLabel → Prop
  | call (symbol : Text) (fastAt checkedAt startedAt : ℚ)
      (times : s.clock ≤ fastAt ∧ fastAt ≤ checkedAt ∧ checkedAt ≤ startedAt)
      (next : begin p s symbol fastAt checkedAt startedAt = (t, es)) :
      Stepped s t es (.news (.call symbol fastAt checkedAt startedAt))
  | resume (id : Nat) (symbol : Text) (lock : AsyncLock) (checkedAt startedAt : ℚ)
      (waits : s.calls[id]? = some ⟨symbol, .waiting⟩)
      (turn : (s.locks symbol).resume? id = some lock)
      (times : s.clock ≤ checkedAt ∧ checkedAt ≤ startedAt)
      (next : underLock p { s with clock := startedAt } id symbol lock checkedAt startedAt =
        (t, es)) :
      Stepped s t es (.news (.resume id checkedAt startedAt))
  | fetched (id : Nat) (symbol : Text) (stale : Option SharedEntry)
      (outcome : Except Exn (List Text)) (completedAt readAt : ℚ)
      (flies : s.calls[id]? = some ⟨symbol, .fetching stale⟩)
      (times : s.clock ≤ completedAt ∧ completedAt ≤ readAt)
      (next : land s id symbol stale outcome completedAt readAt = (t, es)) :
      Stepped s t es (.news (.fetched id outcome completedAt readAt))
  | overwrite (list : Nat) (headlines : List Text) (known : list ∈ s.outside)
      (next : t = { s with heap := s.heap.write list headlines }) (quiet : es = []) :
      Stepped s t es (.overwrite list headlines)

theorem stepped {p : CachingNewsProvider} {s t : SharedState} {l : SharedLabel}
    {es : List FetchEvent} (h : step p s l = some (t, es)) : Stepped p s t es l := by
  cases l with
  | news l =>
      cases l with
      | call symbol fastAt checkedAt startedAt =>
          simp only [step, newsStep, Option.ite_none_right_eq_some, Option.some.injEq] at h
          exact .call _ _ _ _ h.1 h.2
      | resume id checkedAt startedAt =>
          simp only [step, newsStep] at h
          split at h
          · rename_i symbol hcall
            split at h
            · rename_i lock hresume
              simp only [Option.ite_none_right_eq_some, Option.some.injEq] at h
              exact .resume _ _ _ _ _ hcall hresume h.1 h.2
            · cases h
          · cases h
      | fetched id outcome completedAt readAt =>
          simp only [step, newsStep] at h
          split at h
          · rename_i symbol stale hcall
            simp only [Option.ite_none_right_eq_some, Option.some.injEq] at h
            exact .fetched _ _ _ _ _ _ hcall h.1 h.2
          · cases h
  | overwrite list headlines =>
      simp only [step, Option.ite_none_right_eq_some, Option.some.injEq, Prod.mk.injEq] at h
      exact .overwrite _ _ h.1 h.2.1.symm h.2.2.symm

end SharedLists

/-! ### The view without addresses -/

def SharedEntry.view (heap : ListHeap Text) (entry : SharedEntry) : CacheEntry :=
  ⟨heap.read entry.headlines, entry.fetchedAt⟩

def SharedPhase.view (heap : ListHeap Text) : SharedPhase → NewsPhase
  | .waiting => .waiting
  | .fetching stale => .fetching (stale.map (SharedEntry.view heap))
  | .returned _ headlines => .returned headlines

def SharedCall.view (heap : ListHeap Text) (c : SharedCall) : NewsCall :=
  ⟨c.symbol, c.phase.view heap⟩

namespace SharedState

variable {s : SharedState}

def view (s : SharedState) : NewsState where
  cache := fun symbol => (s.cache symbol).map (SharedEntry.view s.heap)
  locks := s.locks
  hitCount := s.hitCount
  missCount := s.missCount
  calls := s.calls.map (SharedCall.view s.heap)
  clock := s.clock

/-- A list that nobody outside knows. -/
def Inside (s : SharedState) (list : Nat) : Prop := list < s.heap.size ∧ list ∉ s.outside

/-- The lists of the cache, and of the entries that fetches in flight have seen, stay inside. -/
structure Private (s : SharedState) : Prop where
  cached : ∀ symbol entry, s.cache symbol = some entry → s.Inside entry.headlines
  fetching : ∀ (symbol : Text) (entry : SharedEntry),
    ⟨symbol, .fetching (some entry)⟩ ∈ s.calls → s.Inside entry.headlines
  outside_lt : ∀ list ∈ s.outside, list < s.heap.size

theorem initial_private (clock : ℚ) : (initial clock).Private := ⟨nofun, nofun, nofun⟩

/-- What changes no list inside changes nothing in the view. -/
theorem Private.view_heap (h : s.Private) {heap : ListHeap Text} (outside : List Nat)
    (hread : ∀ list, s.Inside list → heap.read list = s.heap.read list) :
    ({ s with heap := heap, outside := outside } : SharedState).view = s.view := by
  have hentry (entry : SharedEntry) (hin : s.Inside entry.headlines) :
      entry.view heap = entry.view s.heap := by
    rw [SharedEntry.view, SharedEntry.view, hread _ hin]
  have hcache : (fun symbol => (s.cache symbol).map (SharedEntry.view heap)) =
      fun symbol => (s.cache symbol).map (SharedEntry.view s.heap) := by
    funext symbol
    apply Option.map_congr
    intro entry hmem
    exact hentry entry (h.cached symbol entry hmem)
  have hcalls : s.calls.map (SharedCall.view heap) = s.calls.map (SharedCall.view s.heap) := by
    apply List.map_congr_left
    intro c hc
    obtain ⟨symbol, phase⟩ := c
    cases phase with
    | waiting => rfl
    | returned list headlines => rfl
    | fetching stale =>
        cases stale with
        | none => rfl
        | some entry =>
            simp only [SharedCall.view, SharedPhase.view, Option.map_some,
              hentry entry (h.fetching symbol entry hc)]
  simp only [view, hcache, hcalls]

theorem Private.grow (h : s.Private) {heap : ListHeap Text} {outside : List Nat}
    (hsize : s.heap.size ≤ heap.size) (hold : ∀ list ∈ outside, list < heap.size)
    (hnew : ∀ list ∈ outside, list ∈ s.outside ∨ s.heap.size ≤ list) :
    ({ s with heap := heap, outside := outside } : SharedState).Private := by
  have hinside (list : Nat) (hin : s.Inside list) :
      ({ s with heap := heap, outside := outside } : SharedState).Inside list := by
    refine ⟨hin.1.trans_le hsize, ?_⟩
    intro hmem
    obtain hknown | hlater := hnew list hmem
    · exact hin.2 hknown
    · exact absurd hin.1 (Nat.not_lt.mpr hlater)
  exact ⟨fun symbol entry he => hinside _ (h.cached symbol entry he),
    fun symbol entry hc => hinside _ (h.fetching symbol entry hc), hold⟩

theorem Private.alloc (h : s.Private) (headlines : List Text) : (s.alloc headlines).Private := by
  apply h.grow
  · simp
  · intro list hlist
    have hlt := h.outside_lt list hlist
    simp only [ListHeap.size_alloc]
    omega
  · intro list hlist
    exact .inl hlist

theorem Private.give (h : s.Private) (headlines : List Text) : (s.give headlines).Private := by
  apply h.grow
  · simp
  · intro list hlist
    simp only [ListHeap.size_alloc]
    obtain rfl | hlist := List.mem_cons.mp hlist
    · exact Nat.lt_succ_self _
    · exact (h.outside_lt list hlist).trans (Nat.lt_succ_self _)
  · intro list hlist
    obtain rfl | hlist := List.mem_cons.mp hlist
    · exact .inr (Nat.le_refl _)
    · exact .inl hlist

theorem Private.view_alloc (h : s.Private) (headlines : List Text) :
    (s.alloc headlines).view = s.view :=
  h.view_heap s.outside fun _ hin => s.heap.read_alloc_of_lt hin.1 headlines

theorem Private.view_give (h : s.Private) (headlines : List Text) :
    (s.give headlines).view = s.view :=
  h.view_heap _ fun _ hin => s.heap.read_alloc_of_lt hin.1 headlines

theorem Private.overwrite (h : s.Private) (list : Nat) (headlines : List Text) :
    ({ s with heap := s.heap.write list headlines } : SharedState).Private := by
  apply h.grow
  · simp
  · simpa using h.outside_lt
  · intro other hother
    exact .inl hother

theorem Private.view_overwrite (h : s.Private) {list : Nat} (hout : list ∈ s.outside)
    (headlines : List Text) :
    ({ s with heap := s.heap.write list headlines } : SharedState).view = s.view := by
  apply h.view_heap
  intro other hin
  apply s.heap.read_write_of_ne
  rintro rfl
  exact hin.2 hout

theorem view_setPhase (s : SharedState) (id : Nat) (symbol : Text) (phase : SharedPhase) :
    (s.setPhase id symbol phase).view = s.view.setPhase id symbol (phase.view s.heap) := by
  simp only [view, setPhase, NewsState.setPhase, List.map_set, SharedCall.view]

theorem view_setEntry (s : SharedState) (symbol : Text) (entry : SharedEntry) :
    (s.setEntry symbol entry).view = s.view.setEntry symbol (entry.view s.heap) := by
  have hcache : (fun other => (Function.update s.cache symbol (some entry) other).map
      (SharedEntry.view s.heap)) =
        Function.update (fun other => (s.cache other).map (SharedEntry.view s.heap)) symbol
          (some (entry.view s.heap)) := by
    funext other
    by_cases ho : other = symbol
    · subst ho
      rw [Function.update_self, Function.update_self]
      rfl
    · rw [Function.update_of_ne ho, Function.update_of_ne ho]
  simp only [view, setEntry, NewsState.setEntry, hcache]

theorem Private.setPhase (h : s.Private) (id : Nat) (symbol : Text) {phase : SharedPhase}
    (hphase : ∀ entry, phase = .fetching (some entry) → s.Inside entry.headlines) :
    (s.setPhase id symbol phase).Private where
  cached := h.cached
  fetching := by
    intro other entry hmem
    obtain hold | hnew := List.mem_or_eq_of_mem_set hmem
    · exact h.fetching other entry hold
    · cases hnew
      exact hphase entry rfl
  outside_lt := h.outside_lt

theorem Private.setEntry (h : s.Private) (symbol : Text) {entry : SharedEntry}
    (hentry : s.Inside entry.headlines) : (s.setEntry symbol entry).Private where
  cached := by
    intro other e he
    have he' : Function.update s.cache symbol (some entry) other = some e := he
    by_cases ho : other = symbol
    · subst ho
      rw [Function.update_self] at he'
      cases he'
      exact hentry
    · rw [Function.update_of_ne ho] at he'
      exact h.cached other e he'
  fetching := h.fetching
  outside_lt := h.outside_lt

theorem Private.setLock (h : s.Private) (symbol : Text) (lock : AsyncLock) :
    (s.setLock symbol lock).Private := ⟨h.cached, h.fetching, h.outside_lt⟩

theorem view_setLock (s : SharedState) (symbol : Text) (lock : AsyncLock) :
    (s.setLock symbol lock).view = s.view.setLock symbol lock := rfl

theorem Private.answer (h : s.Private) (id : Nat) (symbol : Text) (list : Nat) :
    (s.answer id symbol list).Private := by
  apply (h.give _).setPhase
  intro entry hphase
  cases hphase

theorem Private.view_answer (h : s.Private) (id : Nat) (symbol : Text) (list : Nat) :
    (s.answer id symbol list).view =
      s.view.setPhase id symbol (.returned (s.heap.read list)) := by
  rw [SharedState.answer, view_setPhase, h.view_give]
  rfl

theorem Private.hit (h : s.Private) (id : Nat) (symbol : Text) (entry : SharedEntry) :
    (s.hit id symbol entry).Private :=
  have hanswer := h.answer id symbol entry.headlines
  ⟨hanswer.cached, hanswer.fetching, hanswer.outside_lt⟩

theorem Private.view_hit (h : s.Private) (id : Nat) (symbol : Text) (entry : SharedEntry) :
    (s.hit id symbol entry).view = s.view.hit id symbol (entry.view s.heap) := by
  have hanswer := h.view_answer id symbol entry.headlines
  change { (s.answer id symbol entry.headlines).view with hitCount := s.hitCount + 1 } = _
  rw [hanswer]
  rfl

theorem Private.miss (h : s.Private) (id : Nat) (symbol : Text) :
    (s.miss id symbol (s.cache symbol)).Private := by
  have hphase : (s.setPhase id symbol (.fetching (s.cache symbol))).Private := by
    apply h.setPhase
    intro entry hentry
    exact h.cached symbol entry (SharedPhase.fetching.inj hentry)
  exact ⟨hphase.cached, hphase.fetching, hphase.outside_lt⟩

theorem view_miss (s : SharedState) (id : Nat) (symbol : Text) :
    (s.miss id symbol (s.cache symbol)).view =
      s.view.miss id symbol (s.view.cache symbol) := by
  change { (s.setPhase id symbol (.fetching (s.cache symbol))).view with
    missCount := s.missCount + 1 } = _
  rw [view_setPhase]
  rfl

theorem Private.handIn (h : s.Private) (outcome : Except Exn (List Text)) :
    (s.handIn outcome).Private ∧ (s.handIn outcome).view = s.view := by
  cases outcome with
  | ok headlines => exact ⟨h.give headlines, h.view_give headlines⟩
  | error e => exact ⟨h.alloc [], h.view_alloc []⟩

theorem handIn_locks (s : SharedState) (outcome : Except Exn (List Text)) :
    (s.handIn outcome).locks = s.locks := by
  cases outcome with
  | ok headlines => rfl
  | error e => rfl

theorem read_handIn (s : SharedState) (outcome : Except Exn (List Text)) :
    (s.handIn outcome).heap.read s.heap.size = CachingNewsProvider.headlinesOf outcome := by
  cases outcome with
  | ok headlines => exact s.heap.read_alloc_self headlines
  | error e => exact s.heap.read_alloc_self []

end SharedState

namespace SharedLists

variable {p : CachingNewsProvider} {s t : SharedState}

/-! ### Each step, and what it is in the view -/

theorem fresh?_view (s : SharedState) (symbol : Text) (now : ℚ) :
    p.fresh? s.view symbol now = (fresh? p s symbol now).map (SharedEntry.view s.heap) := by
  rw [CachingNewsProvider.fresh?, fresh?, SharedState.view, Option.filter_map]
  rfl

theorem underLock_view (h : s.Private) (id : Nat) (symbol : Text) (lock : AsyncLock)
    (checkedAt startedAt : ℚ) :
    (underLock p s id symbol lock checkedAt startedAt).1.Private ∧
      p.underLock s.view id symbol lock checkedAt startedAt =
        ((underLock p s id symbol lock checkedAt startedAt).1.view,
          (underLock p s id symbol lock checkedAt startedAt).2) := by
  rw [CachingNewsProvider.underLock, underLock, fresh?_view]
  cases fresh? p s symbol checkedAt with
  | some entry =>
      refine ⟨(h.hit id symbol entry).setLock symbol _, ?_⟩
      simp only [Option.map_some, ← h.view_hit]
      rfl
  | none =>
      refine ⟨(h.miss id symbol).setLock symbol _, ?_⟩
      simp only [Option.map_none, ← SharedState.view_miss]
      rfl

theorem arrive_view (h : s.Private) (symbol : Text) (now : ℚ) :
    ({ s with calls := s.calls ++ [⟨symbol, .waiting⟩], clock := now } : SharedState).Private ∧
      ({ s with calls := s.calls ++ [⟨symbol, .waiting⟩], clock := now } : SharedState).view =
        { s.view with calls := s.view.calls ++ [⟨symbol, .waiting⟩], clock := now } := by
  refine ⟨⟨h.cached, ?_, h.outside_lt⟩, ?_⟩
  · intro other entry hmem
    obtain hold | hnew := List.mem_append.mp hmem
    · exact h.fetching other entry hold
    · cases List.mem_singleton.mp hnew
  · simp only [SharedState.view, List.map_append, List.map_singleton]
    rfl

theorem begin_view (h : s.Private) (symbol : Text) (fastAt checkedAt startedAt : ℚ) :
    (begin p s symbol fastAt checkedAt startedAt).1.Private ∧
      p.begin s.view symbol fastAt checkedAt startedAt =
        ((begin p s symbol fastAt checkedAt startedAt).1.view,
          (begin p s symbol fastAt checkedAt startedAt).2) := by
  obtain ⟨harrived, hview⟩ := arrive_view h symbol startedAt
  have hid : s.view.calls.length = s.calls.length := List.length_map _
  simp only [CachingNewsProvider.begin, begin, fresh?_view, hid, ← hview]
  cases fresh? p s symbol fastAt with
  | some entry =>
      refine ⟨harrived.hit _ symbol entry, ?_⟩
      simp only [Option.map_some, harrived.view_hit]
  | none =>
      cases hlock : (s.locks symbol).acquire? with
      | some lock =>
          have hlock' : (s.view.locks symbol).acquire? = some lock := hlock
          simp only [Option.map_none, hlock']
          exact underLock_view harrived _ symbol lock checkedAt startedAt
      | none =>
          have hlock' : (s.view.locks symbol).acquire? = none := hlock
          simp only [Option.map_none, hlock']
          exact ⟨harrived.setLock symbol _, rfl⟩

theorem store_view (h : s.Private) (id : Nat) (symbol : Text) {kept : Nat}
    (hkept : kept < s.heap.size) (readAt : ℚ) :
    (store s id symbol kept readAt).Private ∧
      (store s id symbol kept readAt).view =
        ((s.view.setEntry symbol ⟨s.heap.read kept, readAt⟩).setPhase id symbol
          (.returned (s.heap.read kept))).setLock symbol (s.locks symbol).release := by
  have halloc := h.alloc (s.heap.read kept)
  have hinside : (s.alloc (s.heap.read kept)).Inside s.heap.size := by
    refine ⟨?_, ?_⟩
    · exact (Nat.lt_succ_self _).trans_eq (s.heap.size_alloc _).symm
    · intro hmem
      exact Nat.lt_irrefl _ (h.outside_lt _ hmem)
  have hstored : ((s.alloc (s.heap.read kept)).setEntry symbol ⟨s.heap.size, readAt⟩).Private :=
    halloc.setEntry symbol hinside
  have hentry : (⟨s.heap.size, readAt⟩ : SharedEntry).view (s.alloc (s.heap.read kept)).heap =
      ⟨s.heap.read kept, readAt⟩ := by
    rw [SharedEntry.view]
    exact congrArg (CacheEntry.mk · readAt) (s.heap.read_alloc_self _)
  have hread : ((s.alloc (s.heap.read kept)).setEntry symbol
      ⟨s.heap.size, readAt⟩).heap.read kept = s.heap.read kept :=
    s.heap.read_alloc_of_lt hkept _
  refine ⟨(hstored.answer id symbol kept).setLock symbol _, ?_⟩
  have hanswer := hstored.view_answer id symbol kept
  rw [hread, SharedState.view_setEntry, hentry, h.view_alloc] at hanswer
  rw [store, SharedState.view_setLock, hanswer]

theorem read_keep {heap : ListHeap Text} {old : ListHeap Text} {stale : Option SharedEntry}
    {headlines : List Text} {list : Nat} (hlist : heap.read list = headlines)
    (hstale : ∀ entry, stale = some entry →
      heap.read entry.headlines = old.read entry.headlines) :
    heap.read (keep heap stale list) =
      CachingNewsProvider.keep (stale.map (SharedEntry.view old)) headlines := by
  cases stale with
  | none => exact hlist
  | some entry =>
      have hentry := hstale entry rfl
      rw [keep, Option.map_some, CachingNewsProvider.keep, hlist, hentry, SharedEntry.view]
      dsimp only
      split
      · exact hentry
      · exact hlist

theorem land_view (h : s.Private) {id : Nat} {symbol : Text} {stale : Option SharedEntry}
    (hcall : s.calls[id]? = some ⟨symbol, .fetching stale⟩) (outcome : Except Exn (List Text))
    (completedAt readAt : ℚ) :
    (land s id symbol stale outcome completedAt readAt).1.Private ∧
      CachingNewsProvider.land s.view id symbol (stale.map (SharedEntry.view s.heap)) outcome
          completedAt readAt =
        ((land s id symbol stale outcome completedAt readAt).1.view,
          (land s id symbol stale outcome completedAt readAt).2) := by
  have hclock : ({ s with clock := readAt } : SharedState).Private :=
    ⟨h.cached, h.fetching, h.outside_lt⟩
  obtain ⟨hlanded, hview⟩ := hclock.handIn outcome
  have hsize : (({ s with clock := readAt } : SharedState).handIn outcome).heap.size =
      s.heap.size + 1 := by
    cases outcome with
    | ok headlines => exact s.heap.size_alloc _
    | error e => exact s.heap.size_alloc _
  have hold (entry : SharedEntry) (hentry : stale = some entry) :
      entry.headlines < s.heap.size := by
    subst hentry
    exact (h.fetching symbol entry (List.mem_of_getElem? hcall)).1
  have hstale (entry : SharedEntry) (hentry : stale = some entry) :
      (({ s with clock := readAt } : SharedState).handIn outcome).heap.read entry.headlines =
        s.heap.read entry.headlines := by
    cases outcome with
    | ok headlines => exact s.heap.read_alloc_of_lt (hold entry hentry) _
    | error e => exact s.heap.read_alloc_of_lt (hold entry hentry) _
  have hread := read_keep
    (SharedState.read_handIn ({ s with clock := readAt } : SharedState) outcome) hstale
  have hkept : keep (({ s with clock := readAt } : SharedState).handIn outcome).heap stale
      s.heap.size < (({ s with clock := readAt } : SharedState).handIn outcome).heap.size := by
    rw [hsize]
    cases stale with
    | none => exact Nat.lt_succ_self _
    | some entry =>
        rw [keep]
        split
        · exact (hold entry rfl).trans (Nat.lt_succ_self _)
        · exact Nat.lt_succ_self _
  obtain ⟨hprivate, hstore⟩ := store_view hlanded id symbol hkept readAt
  refine ⟨hprivate, ?_⟩
  rw [hview, hread, SharedState.handIn_locks] at hstore
  rw [land, hstore]
  rfl

theorem view_getElem? (s : SharedState) (id : Nat) :
    s.view.calls[id]? = (s.calls[id]?).map (SharedCall.view s.heap) := List.getElem?_map

theorem newsStep_view (h : s.Private) {l : NewsLabel} {es : List FetchEvent}
    (hstep : step p s (.news l) = some (t, es)) :
    t.Private ∧ p.step s.view l = some (t.view, es) := by
  cases stepped hstep with
  | call symbol fastAt checkedAt startedAt times next =>
      have hbegin := begin_view (p := p) h symbol fastAt checkedAt startedAt
      rw [next] at hbegin
      have hle : s.view.clock ≤ fastAt ∧ fastAt ≤ checkedAt ∧ checkedAt ≤ startedAt := times
      rw [CachingNewsProvider.step, if_pos hle, hbegin.2]
      exact ⟨hbegin.1, rfl⟩
  | resume id symbol lock checkedAt startedAt waits turn times next =>
      have hclock : ({ s with clock := startedAt } : SharedState).Private :=
        ⟨h.cached, h.fetching, h.outside_lt⟩
      have hunder := underLock_view (p := p) hclock id symbol lock checkedAt startedAt
      rw [next] at hunder
      have hcall : s.view.calls[id]? = some ⟨symbol, .waiting⟩ := by
        rw [view_getElem?, waits]
        rfl
      have hresume : (s.view.locks symbol).resume? id = some lock := turn
      have hle : s.view.clock ≤ checkedAt ∧ checkedAt ≤ startedAt := times
      simp only [CachingNewsProvider.step, hcall, hresume, if_pos hle]
      exact ⟨hunder.1, congrArg some hunder.2⟩
  | fetched id symbol stale outcome completedAt readAt flies times next =>
      have hland := land_view h flies outcome completedAt readAt
      rw [next] at hland
      have hcall : s.view.calls[id]? =
          some ⟨symbol, .fetching (stale.map (SharedEntry.view s.heap))⟩ := by
        rw [view_getElem?, flies]
        rfl
      have hle : s.view.clock ≤ completedAt ∧ completedAt ≤ readAt := times
      simp only [CachingNewsProvider.step, hcall, if_pos hle]
      exact ⟨hland.1, congrArg some hland.2⟩

theorem step_view (h : s.Private) {l : SharedLabel} {es : List FetchEvent}
    (hstep : step p s l = some (t, es)) :
    t.Private ∧ p.recentHeadlines.Shows s.view l.news? t.view es := by
  cases l with
  | news l => exact newsStep_view h hstep
  | overwrite list headlines =>
      cases stepped hstep with
      | overwrite _ _ known next quiet =>
          subst next quiet
          exact ⟨h.overwrite list headlines, h.view_overwrite known headlines, rfl⟩

/-- A run with its overwriting left out is a run of the provider of values. -/
theorem run_view {clock : ℚ} {ls : List SharedLabel} {tr : List FetchEvent}
    (hr : (recentHeadlines p).run (.initial clock) ls = some (s, tr)) :
    s.Private ∧
      p.recentHeadlines.run (.initial clock) (ls.filterMap SharedLabel.news?) =
        some (s.view, tr) := by
  have hstep : ∀ (s : SharedState) (l : SharedLabel) (t : SharedState) (es : List FetchEvent),
      s.Private → (recentHeadlines p).step s l = some (t, es) →
        t.Private ∧ p.recentHeadlines.Shows s.view l.news? t.view es := by
    intro s l t es h hs
    exact step_view h hs
  exact Machine.run_shows hstep (SharedState.initial_private clock) hr

/-! ### What the returned lists hold -/

/-- A list that has just been returned holds what it is said to. -/
def Handed (calls : List SharedCall) (t : SharedState) : Prop :=
  ∀ (id : Nat) (symbol : Text) (list : Nat) (headlines : List Text),
    t.calls[id]? = some ⟨symbol, .returned list headlines⟩ →
    calls[id]? = some ⟨symbol, .returned list headlines⟩ ∨ t.heap.read list = headlines

theorem handed_answer (s : SharedState) (id : Nat) (symbol : Text) (list : Nat) :
    Handed s.calls (s.answer id symbol list) := by
  intro k other new headlines hk
  have hk' : (s.calls.set id ⟨symbol, .returned s.heap.size (s.heap.read list)⟩)[k]? =
      some ⟨other, .returned new headlines⟩ := hk
  rw [List.getElem?_set] at hk'
  split at hk'
  · split at hk'
    · cases hk'
      exact .inr (s.heap.read_alloc_self _)
    · cases hk'
  · exact .inl hk'

theorem handed_miss (s : SharedState) (id : Nat) (symbol : Text) (stale : Option SharedEntry) :
    Handed s.calls (s.miss id symbol stale) := by
  intro k other new headlines hk
  have hk' : (s.calls.set id ⟨symbol, .fetching stale⟩)[k]? =
      some ⟨other, .returned new headlines⟩ := hk
  rw [List.getElem?_set] at hk'
  split at hk'
  · split at hk'
    · cases hk'
    · cases hk'
  · exact .inl hk'

theorem handed_underLock (s : SharedState) (id : Nat) (symbol : Text) (lock : AsyncLock)
    (checkedAt startedAt : ℚ) :
    Handed s.calls (underLock p s id symbol lock checkedAt startedAt).1 := by
  rw [underLock]
  split
  · rename_i entry _
    exact handed_answer s id symbol entry.headlines
  · exact handed_miss s id symbol _

theorem Handed.arrive {calls : List SharedCall} (symbol : Text)
    (h : Handed (calls ++ [⟨symbol, .waiting⟩]) t) : Handed calls t := by
  intro k other list headlines hk
  obtain hold | hnew := h k other list headlines hk
  · rw [List.getElem?_append] at hold
    split at hold
    · exact .inl hold
    · rw [List.getElem?_singleton] at hold
      split at hold
      · cases hold
      · cases hold
  · exact .inr hnew

theorem handed_begin (s : SharedState) (symbol : Text) (fastAt checkedAt startedAt : ℚ) :
    Handed s.calls (begin p s symbol fastAt checkedAt startedAt).1 := by
  refine Handed.arrive symbol ?_
  simp only [begin]
  split
  · rename_i entry _
    exact handed_answer
      ({ s with calls := s.calls ++ [⟨symbol, .waiting⟩], clock := startedAt } : SharedState) _
      symbol entry.headlines
  · split
    · exact handed_underLock
        ({ s with calls := s.calls ++ [⟨symbol, .waiting⟩], clock := startedAt } : SharedState) _
        symbol _ checkedAt startedAt
    · intro k other list headlines hk
      exact .inl hk

theorem handed_land (s : SharedState) (id : Nat) (symbol : Text) (stale : Option SharedEntry)
    (outcome : Except Exn (List Text)) (completedAt readAt : ℚ) :
    Handed s.calls (land s id symbol stale outcome completedAt readAt).1 := by
  cases outcome with
  | ok headlines => exact handed_answer _ id symbol _
  | error e => exact handed_answer _ id symbol _

theorem handed_step {l : SharedLabel} {es : List FetchEvent}
    (hstep : step p s l = some (t, es)) : Handed s.calls t := by
  cases stepped hstep with
  | call symbol fastAt checkedAt startedAt times next =>
      have hbegin := handed_begin (p := p) s symbol fastAt checkedAt startedAt
      rwa [next] at hbegin
  | resume id symbol lock checkedAt startedAt waits turn times next =>
      have hunder := handed_underLock (p := p) { s with clock := startedAt } id symbol lock
        checkedAt startedAt
      rwa [next] at hunder
  | fetched id symbol stale outcome completedAt readAt flies times next =>
      have hland := handed_land s id symbol stale outcome completedAt readAt
      rwa [next] at hland
  | overwrite list headlines known next quiet =>
      subst next
      intro k other new contents hk
      exact .inl hk

theorem returned_of_view {id : Nat} {symbol : Text} {headlines : List Text}
    (h : s.view.calls[id]? = some ⟨symbol, .returned headlines⟩) :
    ∃ list, s.calls[id]? = some ⟨symbol, .returned list headlines⟩ := by
  rw [view_getElem?] at h
  obtain ⟨⟨other, phase⟩, hcall, hview⟩ := Option.map_eq_some_iff.mp h
  cases phase with
  | waiting => cases hview
  | fetching stale => cases hview
  | returned list contents =>
      cases hview
      exact ⟨list, hcall⟩

theorem view_of_returned {id list : Nat} {symbol : Text} {headlines : List Text}
    (h : s.calls[id]? = some ⟨symbol, .returned list headlines⟩) :
    s.view.calls[id]? = some ⟨symbol, .returned headlines⟩ := by
  rw [view_getElem?, h]
  rfl

/-- Every answer that a step gives is what the cache holds after it. -/
theorem known_of_step (h : s.Private) {l : SharedLabel} {es : List FetchEvent}
    (hstep : step p s l = some (t, es)) {id list : Nat} {symbol : Text} {headlines : List Text}
    (hnow : t.calls[id]? = some ⟨symbol, .returned list headlines⟩)
    (hnew : ∀ old contents, s.calls[id]? ≠ some ⟨symbol, .returned old contents⟩) :
    headlines = CacheEntry.known (t.view.cache symbol) := by
  cases l with
  | news l =>
      have hvalue := (newsStep_view h hstep).2
      obtain hold | hknown :=
        CachingNewsProvider.answers_step hvalue id symbol headlines (view_of_returned hnow)
      · obtain ⟨old, hold⟩ := returned_of_view hold
        exact absurd hold (hnew old headlines)
      · exact hknown
  | overwrite other contents =>
      cases stepped hstep with
      | overwrite _ _ known next quiet =>
          subst next
          exact absurd hnow (hnew list headlines)

/-- Whenever a call returns, its list holds the last headlines found for the symbol, up to and
with that step; and the answers are those of the run in which nobody overwrites anything. -/
theorem answers_last_good (p : CachingNewsProvider) {clock : ℚ} {past : List SharedLabel}
    {tr es : List FetchEvent} {l : SharedLabel}
    (hr : (recentHeadlines p).run (.initial clock) past = some (s, tr))
    (hstep : step p s l = some (t, es)) :
    (∀ (id : Nat) (symbol : Text) (list : Nat) (headlines : List Text),
      t.calls[id]? = some ⟨symbol, .returned list headlines⟩ →
      (∀ old contents, s.calls[id]? ≠ some ⟨symbol, .returned old contents⟩) →
      t.heap.read list = headlines ∧
        headlines = lastGood ((past ++ [l]).filterMap SharedLabel.news?) symbol) ∧
    p.recentHeadlines.run (.initial clock) ((past ++ [l]).filterMap SharedLabel.news?) =
      some (t.view, tr ++ es) := by
  obtain ⟨hprivate, -⟩ := run_view hr
  have hboth : (recentHeadlines p).run (.initial clock) (past ++ [l]) = some (t, tr ++ es) :=
    (Machine.run_append _).mpr ⟨s, tr, es, hr,
      (Machine.run_cons _ _ _ _).mpr ⟨t, es, [], hstep, rfl, (List.append_nil es).symm⟩, rfl⟩
  obtain ⟨-, hview'⟩ := run_view hboth
  refine ⟨?_, hview'⟩
  intro id symbol list headlines hnow hnew
  obtain hold | hread := handed_step hstep id symbol list headlines hnow
  · exact absurd hold (hnew list headlines)
  · refine ⟨hread, ?_⟩
    rw [← (CachingNewsProvider.run_remembers p hview').cached]
    exact known_of_step hprivate hstep hnow hnew

/-- A caller and the inner provider overwrite their lists; a minute later the fetch fails. -/
def spoiledLists : List SharedLabel :=
  [.news (.call (text "A") 0 0 0), .news (.fetched 0 (.ok [text "v1"]) 1 1),
    .overwrite 2 [text "x"], .overwrite 0 [], .news (.call (text "A") 100 100 100)]

def outage : SharedLabel := .news (.fetched 1 (raise .osError) 101 101)

theorem spoiledLists_answer : ∃ (t : SharedState) (list : Nat),
    t.calls[1]? = some ⟨text "A", .returned list [text "v1"]⟩ ∧
      t.heap.read list = [text "v1"] ∧
      [text "v1"] =
        lastGood ((spoiledLists ++ [outage]).filterMap SharedLabel.news?) (text "A") := by
  have hrun : ((recentHeadlines CachingNewsProvider.minuteCache).run (.initial 0)
      spoiledLists).bind (fun out =>
        (step CachingNewsProvider.minuteCache out.1 outage).map fun next =>
          (out.1.calls[1]?, next.1.calls[1]?)) =
      some (some ⟨text "A", .fetching (some ⟨1, 1⟩)⟩,
        some ⟨text "A", .returned 5 [text "v1"]⟩) := by
    decide +kernel
  obtain ⟨⟨s, tr⟩, hr, hlast⟩ := Option.bind_eq_some_iff.mp hrun
  obtain ⟨⟨t, es⟩, hstep, hcalls⟩ := Option.map_eq_some_iff.mp hlast
  obtain ⟨hbefore, hafter⟩ := Prod.mk.inj hcalls
  obtain ⟨hread, hgood⟩ := (answers_last_good _ hr hstep).1 1 (text "A") 5 _ hafter (by
    intro old contents h
    rw [hbefore] at h
    cases h)
  exact ⟨t, 5, hafter, hread, hgood⟩

end SharedLists

end NexusBackend
