import NexusBackend.News.CachingProvider
import Mathlib.Data.List.Chain
import Mathlib.Tactic.Linarith

/-!
The inner fetches of the caching provider, over every interleaving of its calls: for one
symbol they follow one another, at least one lifetime of an entry apart, and the two
counters account for every call.
-/
namespace NexusBackend

open Python Transition

/-- A fetch that has ended. -/
structure Fetch where
  id : Nat
  startedAt : ℚ
  completedAt : ℚ
deriving DecidableEq

def Fetch.marks (f : Fetch) : List FetchMark :=
  [.started f.id f.startedAt, .completed f.id f.completedAt]

def FetchEvent.markOf (symbol : Text) (e : FetchEvent) : Option FetchMark :=
  if e.symbol = symbol then some e.mark else none

/-- What the fetches for one symbol have shown. -/
def marksOf (symbol : Text) (tr : List FetchEvent) : List FetchMark :=
  tr.filterMap (FetchEvent.markOf symbol)

def FetchEvent.isStart (e : FetchEvent) : Bool :=
  match e.mark with
  | .started .. => true
  | .completed .. => false

/-- The inner calls of a run. -/
def innerCalls (tr : List FetchEvent) : Nat := tr.countP FetchEvent.isStart

/-- The marks are those of fetches that have ended, one after the other, and of at most one
that has not; each begins at least `ttl` after the end of the one before. -/
structure OneByOne (ttl : ℚ) (marks : List FetchMark) (done : List Fetch)
    (flying : Option (Nat × ℚ)) : Prop where
  marks_eq : marks = done.flatMap Fetch.marks ++
    flying.toList.map fun f => .started f.1 f.2
  spaced : done.IsChain fun a b => a.completedAt + ttl ≤ b.startedAt
  flying_spaced : ∀ f ∈ flying, ∀ last ∈ done.getLast?, last.completedAt + ttl ≤ f.2

theorem OneByOne.start {ttl : ℚ} {marks : List FetchMark} {done : List Fetch}
    (h : OneByOne ttl marks done none) (id : Nat) {startedAt : ℚ}
    (hspaced : ∀ last ∈ done.getLast?, last.completedAt + ttl ≤ startedAt) :
    OneByOne ttl (marks ++ [.started id startedAt]) done (some (id, startedAt)) where
  marks_eq := by
    rw [h.marks_eq]
    simp
  spaced := h.spaced
  flying_spaced := by
    intro f hf
    obtain rfl := Option.some.inj hf
    exact hspaced

theorem OneByOne.land {ttl : ℚ} {marks : List FetchMark} {done : List Fetch} {id : Nat}
    {startedAt : ℚ} (h : OneByOne ttl marks done (some (id, startedAt))) (completedAt : ℚ) :
    OneByOne ttl (marks ++ [.completed id completedAt])
      (done ++ [⟨id, startedAt, completedAt⟩]) none where
  marks_eq := by
    rw [h.marks_eq]
    simp [Fetch.marks]
  spaced := by
    apply h.spaced.append (List.IsChain.singleton _)
    intro last hlast f hf
    obtain rfl := Option.some.inj hf
    exact h.flying_spaced _ rfl last hlast
  flying_spaced := nofun

/-! ### What a state says about one symbol -/

def NewsCall.isWaiting (c : NewsCall) : Bool := c.phase = .waiting

namespace NewsState

/-- The lock is held exactly during a fetch, by the call whose fetch it is, and an entry is
no older than the last fetch. -/
structure Covers (s : NewsState) (symbol : Text) (done : List Fetch)
    (flying : Option (Nat × ℚ)) : Prop where
  locked : (s.locks symbol).locked = flying.isSome
  fetching : ∀ id stale, s.calls[id]? = some ⟨symbol, .fetching stale⟩ →
    ∃ startedAt, flying = some (id, startedAt)
  cached : ∀ last ∈ done.getLast?, ∃ entry, s.cache symbol = some entry ∧
    last.completedAt ≤ entry.fetchedAt

/-- No fetch of the symbol begins or ends, and nothing that it could see changes. -/
structure Same (s t : NewsState) (symbol : Text) : Prop where
  locked : (t.locks symbol).locked = (s.locks symbol).locked
  fetching : ∀ (id : Nat) (stale : Option CacheEntry),
    t.calls[id]? = some ⟨symbol, .fetching stale⟩ → s.calls[id]? = some ⟨symbol, .fetching stale⟩
  cached : t.cache symbol = s.cache symbol

theorem Covers.same {s t : NewsState} {symbol : Text} {done : List Fetch}
    {flying : Option (Nat × ℚ)} (h : s.Covers symbol done flying) (hs : s.Same t symbol) :
    t.Covers symbol done flying where
  locked := hs.locked.trans h.locked
  fetching := fun id stale hcall => h.fetching id stale (hs.fetching id stale hcall)
  cached := by
    rw [hs.cached]
    exact h.cached

theorem Same.trans {s t u : NewsState} {symbol : Text} (h : s.Same t symbol)
    (h' : t.Same u symbol) : s.Same u symbol :=
  ⟨h'.locked.trans h.locked, fun id stale hc => h.fetching id stale (h'.fetching id stale hc),
    h'.cached.trans h.cached⟩

theorem fetching_append {calls : List NewsCall} {symbol other : Text} {id : Nat}
    {stale : Option CacheEntry}
    (h : (calls ++ [⟨other, .waiting⟩])[id]? = some ⟨symbol, .fetching stale⟩) :
    calls[id]? = some ⟨symbol, .fetching stale⟩ := by
  rw [List.getElem?_append] at h
  split at h
  · exact h
  · rw [List.getElem?_singleton] at h
    split at h <;> cases h

theorem fetching_set {calls : List NewsCall} {symbol other : Text} {id k : Nat}
    {phase : NewsPhase} {stale : Option CacheEntry}
    (hphase : other = symbol → ∀ e, phase ≠ .fetching e)
    (h : (calls.set k ⟨other, phase⟩)[id]? = some ⟨symbol, .fetching stale⟩) :
    id ≠ k ∧ calls[id]? = some ⟨symbol, .fetching stale⟩ := by
  rw [List.getElem?_set] at h
  split at h
  · split at h
    · cases h
      exact absurd rfl (hphase rfl stale)
    · cases h
  · rename_i hne
    exact ⟨fun he => hne he.symm, h⟩

/-- The calls that stand at a lock. -/
def waitingCount (s : NewsState) : Nat := s.calls.countP NewsCall.isWaiting

theorem countP_set_call {calls : List NewsCall} {id : Nat} {c : NewsCall}
    (h : calls[id]? = some c) (d : NewsCall) :
    (calls.set id d).countP NewsCall.isWaiting + (if c.isWaiting then 1 else 0) =
      calls.countP NewsCall.isWaiting + if d.isWaiting then 1 else 0 := by
  obtain ⟨hlt, rfl⟩ := List.getElem?_eq_some_iff.mp h
  rw [List.countP_set hlt]
  have hle : (if calls[id].isWaiting then 1 else 0) ≤ calls.countP NewsCall.isWaiting := by
    split
    · rename_i hw
      exact List.countP_pos_iff.mpr ⟨_, List.getElem_mem hlt, hw⟩
    · exact Nat.zero_le _
  omega

end NewsState

/-! ### Events of one step -/

theorem marksOf_append (symbol : Text) (tr es : List FetchEvent) :
    marksOf symbol (tr ++ es) = marksOf symbol tr ++ marksOf symbol es := List.filterMap_append

theorem marksOf_self (symbol : Text) (mark : FetchMark) :
    marksOf symbol [⟨symbol, mark⟩] = [mark] := by
  simp [marksOf, FetchEvent.markOf]

theorem marksOf_other {symbol other : Text} (h : other ≠ symbol) (mark : FetchMark) :
    marksOf symbol [⟨other, mark⟩] = [] := by
  simp [marksOf, FetchEvent.markOf, h]

namespace CachingNewsProvider

variable {p : CachingNewsProvider} {s : NewsState} {tr : List FetchEvent} {id : Nat}
  {symbol : Text}

/-- What holds between any two awaits. -/
structure Sound (p : CachingNewsProvider) (s : NewsState) (tr : List FetchEvent) : Prop where
  flights : ∀ symbol, ∃ done flying, OneByOne p.ttl (marksOf symbol tr) done flying ∧
    s.Covers symbol done flying
  counted : s.hitCount + s.missCount + s.waitingCount = s.calls.length
  missed : s.missCount = innerCalls tr

theorem initial_sound (p : CachingNewsProvider) (clock : ℚ) : p.Sound (.initial clock) [] where
  flights := fun _ => ⟨[], none, ⟨rfl, List.isChain_nil, nofun⟩, ⟨rfl, nofun, nofun⟩⟩
  counted := rfl
  missed := rfl

/-- A step without events in which no fetch begins or ends. -/
theorem Sound.same (h : p.Sound s tr) {t : NewsState} (hsame : ∀ symbol, s.Same t symbol)
    (hcount : t.hitCount + t.missCount + t.waitingCount = t.calls.length)
    (hmiss : t.missCount = s.missCount) : p.Sound t tr where
  flights := by
    intro symbol
    obtain ⟨done, flying, hflights, hcovers⟩ := h.flights symbol
    exact ⟨done, flying, hflights, hcovers.same (hsame symbol)⟩
  counted := hcount
  missed := hmiss.trans h.missed

theorem Sound.arrive (h : p.Sound s tr) (symbol : Text) (now : ℚ) :
    p.Sound { s with calls := s.calls ++ [⟨symbol, .waiting⟩], clock := now } tr := by
  apply h.same
  · intro other
    exact ⟨rfl, fun id stale => NewsState.fetching_append, rfl⟩
  · have hcount := h.counted
    have hw : (⟨symbol, .waiting⟩ : NewsCall).isWaiting = true := rfl
    simp only [NewsState.waitingCount, List.countP_append, List.length_append,
      List.countP_singleton, List.length_singleton, hw] at hcount ⊢
    simp only [if_true]
    omega
  · rfl

/-- A lock that changes hands without being taken or freed. -/
theorem Sound.setLock (h : p.Sound s tr) {lock : AsyncLock}
    (hlock : lock.locked = (s.locks symbol).locked) : p.Sound (s.setLock symbol lock) tr := by
  apply h.same
  · intro other
    refine ⟨?_, fun id stale hc => hc, rfl⟩
    by_cases ho : other = symbol
    · subst ho
      simp [NewsState.setLock, hlock]
    · simp [NewsState.setLock, ho]
  · exact h.counted
  · rfl

theorem Sound.hit (h : p.Sound s tr) (hcall : s.calls[id]? = some ⟨symbol, .waiting⟩)
    (entry : CacheEntry) : p.Sound (s.hit id symbol entry) tr := by
  apply h.same
  · intro other
    exact ⟨rfl, fun k stale hc => (NewsState.fetching_set (by simp) hc).2, rfl⟩
  · have hcount := h.counted
    have hset := NewsState.countP_set_call hcall ⟨symbol, .returned entry.headlines⟩
    simp only [NewsCall.isWaiting, decide_true, if_true, reduceCtorEq, decide_false,
      Bool.false_eq_true, if_false] at hset
    simp only [NewsState.hit, NewsState.setPhase, NewsState.waitingCount,
      List.length_set] at hcount ⊢
    omega
  · rfl

/-- An entry that is not fresh is a lifetime old. -/
theorem stale_of_fresh? {now : ℚ} (h : p.fresh? s symbol now = none) {entry : CacheEntry}
    (hentry : s.cache symbol = some entry) : entry.fetchedAt + p.ttl ≤ now := by
  rw [fresh?, hentry] at h
  simp only [Option.filter_eq_none_iff, Option.some.injEq, forall_eq', decide_eq_true_eq,
    not_lt] at h
  linarith

theorem Sound.miss (h : p.Sound s tr) (hcall : s.calls[id]? = some ⟨symbol, .waiting⟩)
    (hfree : (s.locks symbol).locked = false) {lock : AsyncLock} (hlock : lock.locked = true)
    {checkedAt startedAt : ℚ} (hstale : p.fresh? s symbol checkedAt = none)
    (hle : checkedAt ≤ startedAt) (stale : Option CacheEntry) :
    p.Sound ((s.miss id symbol stale).setLock symbol lock)
      (tr ++ [⟨symbol, .started id startedAt⟩]) where
  flights := by
    intro other
    obtain ⟨done, flying, hflights, hcovers⟩ := h.flights other
    rw [marksOf_append]
    by_cases ho : symbol = other
    · subst ho
      obtain rfl : flying = none := by
        have hnone := hcovers.locked
        rw [hfree] at hnone
        exact Option.not_isSome_iff_eq_none.mp (by simp [← hnone])
      refine ⟨done, some (id, startedAt), ?_, ?_, ?_, ?_⟩
      · rw [marksOf_self]
        apply hflights.start
        intro last hlast
        obtain ⟨entry, hentry, hold⟩ := hcovers.cached last hlast
        have hage := stale_of_fresh? hstale hentry
        linarith
      · simp [NewsState.setLock, hlock]
      · intro k e hk
        have hk' : (s.calls.set id ⟨symbol, .fetching stale⟩)[k]? = some ⟨symbol, .fetching e⟩ := hk
        rw [List.getElem?_set] at hk'
        split at hk'
        · rename_i hid
          exact ⟨startedAt, by rw [hid]⟩
        · obtain ⟨_, hnone⟩ := hcovers.fetching k e hk'
          cases hnone
      · exact hcovers.cached
    · refine ⟨done, flying, ?_, hcovers.same ⟨?_, ?_, rfl⟩⟩
      · rw [marksOf_other ho, List.append_nil]
        exact hflights
      · simp [NewsState.setLock, NewsState.miss, NewsState.setPhase, Ne.symm ho]
      · intro k e hk
        exact (NewsState.fetching_set (fun he => absurd he ho) hk).2
  counted := by
    have hcount := h.counted
    have hset := NewsState.countP_set_call hcall ⟨symbol, .fetching stale⟩
    simp only [NewsCall.isWaiting, decide_true, if_true, reduceCtorEq, decide_false,
      Bool.false_eq_true, if_false] at hset
    simp only [NewsState.setLock, NewsState.miss, NewsState.setPhase, NewsState.waitingCount,
      List.length_set] at hcount ⊢
    omega
  missed := by
    rw [innerCalls, List.countP_append]
    exact congrArg Nat.succ h.missed

theorem Sound.underLock (h : p.Sound s tr) (hcall : s.calls[id]? = some ⟨symbol, .waiting⟩)
    (hfree : (s.locks symbol).locked = false) {lock : AsyncLock} (hlock : lock.locked = true)
    {checkedAt startedAt : ℚ} (hle : checkedAt ≤ startedAt) :
    p.Sound (p.underLock s id symbol lock checkedAt startedAt).1
      (tr ++ (p.underLock s id symbol lock checkedAt startedAt).2) := by
  rw [CachingNewsProvider.underLock]
  split
  · rw [List.append_nil]
    exact (h.hit hcall _).setLock hfree.symm
  · rename_i hstale
    exact h.miss hcall hfree hlock hstale hle _

theorem Sound.begin (h : p.Sound s tr) (symbol : Text) (fastAt : ℚ) {checkedAt startedAt : ℚ}
    (hle : checkedAt ≤ startedAt) :
    p.Sound (p.begin s symbol fastAt checkedAt startedAt).1
      (tr ++ (p.begin s symbol fastAt checkedAt startedAt).2) := by
  have harrived := h.arrive symbol startedAt
  have hcall : (s.calls ++ [⟨symbol, .waiting⟩])[s.calls.length]? =
      some (⟨symbol, .waiting⟩ : NewsCall) := by simp
  simp only [CachingNewsProvider.begin]
  split
  · rw [List.append_nil]
    exact harrived.hit hcall _
  · split
    · rename_i lock hacquire
      obtain ⟨hfree, hlock⟩ := AsyncLock.acquire?_spec hacquire
      exact harrived.underLock hcall hfree hlock hle
    · rw [List.append_nil]
      exact harrived.setLock rfl

theorem Sound.land (h : p.Sound s tr) {stale : Option CacheEntry}
    (hcall : s.calls[id]? = some ⟨symbol, .fetching stale⟩) (outcome : Except Exn (List Text))
    {completedAt readAt : ℚ} (hle : completedAt ≤ readAt) :
    p.Sound (CachingNewsProvider.land s id symbol stale outcome completedAt readAt).1
      (tr ++ (CachingNewsProvider.land s id symbol stale outcome completedAt readAt).2) where
  flights := by
    intro other
    obtain ⟨done, flying, hflights, hcovers⟩ := h.flights other
    rw [marksOf_append]
    by_cases ho : symbol = other
    · subst ho
      obtain ⟨startedAt, rfl⟩ := hcovers.fetching id stale hcall
      refine ⟨done ++ [⟨id, startedAt, completedAt⟩], none, ?_, ?_, ?_, ?_⟩
      · exact marksOf_self symbol _ ▸ hflights.land completedAt
      · simp [CachingNewsProvider.land, NewsState.setLock, AsyncLock.release]
      · intro k e hk
        obtain ⟨hne, hk'⟩ := NewsState.fetching_set (by simp) hk
        obtain ⟨_, hflying⟩ := hcovers.fetching k e hk'
        cases hflying
        exact absurd rfl hne
      · intro last hlast
        obtain rfl : _ = last := by simpa using hlast
        refine ⟨⟨_, readAt⟩, Function.update_self .., hle⟩
    · refine ⟨done, flying, ?_, hcovers.same ⟨?_, ?_, ?_⟩⟩
      · change OneByOne p.ttl (_ ++ marksOf other [⟨symbol, _⟩]) done flying
        rw [marksOf_other ho, List.append_nil]
        exact hflights
      · simp [CachingNewsProvider.land, NewsState.setLock, NewsState.setPhase,
          NewsState.setEntry, Ne.symm ho]
      · intro k e hk
        exact (NewsState.fetching_set (fun he => absurd he ho) hk).2
      · simp [CachingNewsProvider.land, NewsState.setLock, NewsState.setPhase,
          NewsState.setEntry, Ne.symm ho]
  counted := by
    have hcount := h.counted
    have hset := NewsState.countP_set_call hcall
      ⟨symbol, .returned (keep stale (headlinesOf outcome))⟩
    simp only [NewsCall.isWaiting, reduceCtorEq, decide_false, Bool.false_eq_true, if_false,
      Nat.add_zero] at hset
    simp only [CachingNewsProvider.land, NewsState.setLock, NewsState.setPhase,
      NewsState.setEntry, NewsState.waitingCount, List.length_set] at hcount ⊢
    omega
  missed := by
    rw [innerCalls, List.countP_append]
    exact h.missed

/-- What one step keeps. -/
theorem Sound.step (h : p.Sound s tr) {l : NewsLabel} {t : NewsState} {es : List FetchEvent}
    (hstep : p.step s l = some (t, es)) : p.Sound t (tr ++ es) := by
  cases stepped hstep with
  | call symbol fastAt checkedAt startedAt times next =>
      have hsound := h.begin symbol fastAt times.2.2
      rwa [next] at hsound
  | resume id symbol lock checkedAt startedAt waits turn times next =>
      obtain ⟨hfree, hlock⟩ := AsyncLock.resume?_spec turn
      have hclock : p.Sound { s with clock := startedAt } tr :=
        h.same (fun _ => ⟨rfl, fun _ _ hc => hc, rfl⟩) h.counted rfl
      have hsound := hclock.underLock waits hfree hlock times.2
      rwa [next] at hsound
  | fetched id symbol stale outcome completedAt readAt flies times next =>
      have hsound := h.land flies outcome times.2
      rwa [next] at hsound

/-- For each symbol the inner fetches come one by one, a lifetime apart; there are as many of
them as misses; and once every call has returned, each was a hit or a miss. -/
theorem fetches_one_by_one (p : CachingNewsProvider) {clock : ℚ} {ls : List NewsLabel}
    (hr : p.recentHeadlines.run (.initial clock) ls = some (s, tr)) :
    (∀ symbol, ∃ done flying, OneByOne p.ttl (marksOf symbol tr) done flying) ∧
      s.missCount = innerCalls tr ∧
      ((∀ c ∈ s.calls, ∃ headlines, c.phase = .returned headlines) →
        s.hitCount + s.missCount = s.calls.length) := by
  have hsound : p.Sound s tr := Machine.run_invariant (I := p.Sound)
    (fun _ _ _ _ _ h hstep => h.step hstep) (initial_sound p clock) hr
  refine ⟨?_, hsound.missed, ?_⟩
  · intro symbol
    obtain ⟨done, flying, hflights, -⟩ := hsound.flights symbol
    exact ⟨done, flying, hflights⟩
  · intro hreturned
    have hwaiting : s.waitingCount = 0 := by
      apply List.countP_eq_zero.mpr
      intro c hc
      obtain ⟨headlines, hphase⟩ := hreturned c hc
      simp [NewsCall.isWaiting, hphase]
    have hcount := hsound.counted
    omega

def minuteCache : CachingNewsProvider := ⟨60, by norm_num⟩

/-- Two calls share a fetch that fails; the third comes after the entry has expired. -/
def sharedFetch : List NewsLabel :=
  [.call (text "A") 0 0 0, .call (text "A") 1 1 1, .fetched 0 (raise .osError) 2 3, .resume 1 4 4,
    .call (text "A") 63 63 63, .fetched 2 (.ok [text "v2"]) 64 64]

theorem shared_fetch_counts : ∃ s tr,
    minuteCache.recentHeadlines.run (.initial 0) sharedFetch = some (s, tr) ∧ innerCalls tr = 2 ∧
      s.hitCount + s.missCount = 3 := by
  have h : (minuteCache.recentHeadlines.run (.initial 0) sharedFetch).map (fun out =>
      (out.1.calls.map fun c => c.phase, innerCalls out.2)) =
        some ([.returned [], .returned [], .returned [text "v2"]], 2) := by
    decide +kernel
  obtain ⟨⟨s, tr⟩, hr, hout⟩ := Option.map_eq_some_iff.mp h
  obtain ⟨hphases, hinner⟩ := Prod.mk.inj hout
  have hlen : s.calls.length = 3 := by simpa using congrArg List.length hphases
  refine ⟨s, tr, hr, hinner, ?_⟩
  rw [← hlen]
  apply (fetches_one_by_one minuteCache hr).2.2
  intro c hc
  have hphase : c.phase ∈ s.calls.map fun c => c.phase := List.mem_map_of_mem hc
  rw [hphases] at hphase
  simp only [List.mem_cons, List.not_mem_nil, or_false] at hphase
  obtain h | h | h := hphase
  · exact ⟨_, h⟩
  · exact ⟨_, h⟩
  · exact ⟨_, h⟩

end CachingNewsProvider

end NexusBackend
