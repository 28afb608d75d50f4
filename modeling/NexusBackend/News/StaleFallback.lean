import NexusBackend.News.SingleFlight

/-!
What the calls of the caching provider answer, over every interleaving: the last headlines that
any fetch of the symbol has found, whatever has failed or expired since.
-/
namespace NexusBackend

open Python Transition

/-- What has been asked and found: the symbols of the calls in their order, and for each symbol
the last headlines found for it, none before the first. -/
structure FetchHistory where
  symbols : List Text
  lastGood : Text → List Text

namespace FetchHistory

def empty : FetchHistory := ⟨[], fun _ => []⟩

def found (h : FetchHistory) (symbol : Text) (headlines : List Text) : FetchHistory :=
  if headlines = [] then h
  else { h with lastGood := Function.update h.lastGood symbol headlines }

def add (h : FetchHistory) : NewsLabel → FetchHistory
  | .call symbol _ _ _ => { h with symbols := h.symbols ++ [symbol] }
  | .resume _ _ _ => h
  | .fetched id outcome _ _ =>
      match h.symbols[id]? with
      | some symbol => h.found symbol (CachingNewsProvider.headlinesOf outcome)
      | none => h

@[simp] theorem found_symbols (h : FetchHistory) (symbol : Text) (headlines : List Text) :
    (h.found symbol headlines).symbols = h.symbols := by
  rw [found]
  split
  · rfl
  · rfl

theorem found_other (h : FetchHistory) {symbol other : Text} (hne : other ≠ symbol)
    (headlines : List Text) : (h.found symbol headlines).lastGood other = h.lastGood other := by
  rw [found]
  split
  · rfl
  · exact Function.update_of_ne hne _ _

theorem found_self (h : FetchHistory) (symbol : Text) (headlines : List Text) :
    (h.found symbol headlines).lastGood symbol =
      if headlines = [] then h.lastGood symbol else headlines := by
  rw [found]
  split
  · rfl
  · exact Function.update_self ..

end FetchHistory

def fetchHistory (past : List NewsLabel) : FetchHistory := past.foldl .add .empty

/-- The last headlines that a fetch of the symbol has found. -/
def lastGood (past : List NewsLabel) (symbol : Text) : List Text :=
  (fetchHistory past).lastGood symbol

theorem fetchHistory_concat (past : List NewsLabel) (l : NewsLabel) :
    fetchHistory (past ++ [l]) = (fetchHistory past).add l := List.foldl_append

def CacheEntry.known : Option CacheEntry → List Text
  | some entry => entry.headlines
  | none => []

namespace CachingNewsProvider

variable {p : CachingNewsProvider} {s t : NewsState} {past : List NewsLabel} {id : Nat}
  {symbol : Text}

theorem keep_eq (stale : Option CacheEntry) (headlines : List Text) :
    keep stale headlines = if headlines = [] then CacheEntry.known stale else headlines := by
  cases stale with
  | none =>
      rw [keep]
      split
      · assumption
      · rfl
  | some entry =>
      rw [keep, CacheEntry.known]
      by_cases hnew : headlines = []
      · by_cases hold : entry.headlines = []
        · rw [if_neg (fun h => h.2 hold), if_pos hnew, hnew, hold]
        · rw [if_pos ⟨hnew, hold⟩, if_pos hnew]
      · rw [if_neg (fun h => hnew h.1), if_neg hnew]

theorem cache_of_fresh? {now : ℚ} {entry : CacheEntry} (h : p.fresh? s symbol now = some entry) :
    s.cache symbol = some entry := (Option.filter_eq_some_iff.mp h).1

theorem land_cache (s : NewsState) (id : Nat) (symbol : Text) (stale : Option CacheEntry)
    (outcome : Except Exn (List Text)) (completedAt readAt : ℚ) :
    (CachingNewsProvider.land s id symbol stale outcome completedAt readAt).1.cache =
      Function.update s.cache symbol (some ⟨keep stale (headlinesOf outcome), readAt⟩) := rfl

/-! ### The cache remembers -/

/-- The cache holds the last headlines found, and a fetch in flight has seen the entry there is. -/
structure Remembers (s : NewsState) (past : List NewsLabel) : Prop where
  symbols : s.calls.map NewsCall.symbol = (fetchHistory past).symbols
  cached : ∀ symbol, CacheEntry.known (s.cache symbol) = lastGood past symbol
  fetching : ∀ (id : Nat) (symbol : Text) (stale : Option CacheEntry),
    s.calls[id]? = some ⟨symbol, .fetching stale⟩ → stale = s.cache symbol

theorem initial_remembers (clock : ℚ) : Remembers (.initial clock) [] where
  symbols := rfl
  cached := fun _ => rfl
  fetching := nofun

/-- A call that changes its phase keeps its symbol. -/
theorem map_symbol_set {calls : List NewsCall} {phase : NewsPhase}
    (hcall : calls[id]? = some ⟨symbol, phase⟩) (next : NewsPhase) :
    (calls.set id ⟨symbol, next⟩).map NewsCall.symbol = calls.map NewsCall.symbol := by
  apply List.ext_getElem?
  intro k
  rw [List.map_set, List.getElem?_set]
  split
  · rename_i hk
    subst hk
    obtain ⟨hlt, -⟩ := List.getElem?_eq_some_iff.mp hcall
    rw [if_pos (by simpa using hlt), List.getElem?_map, hcall]
    rfl
  · rfl

theorem Remembers.setLock (h : Remembers s past) (symbol : Text) (lock : AsyncLock) :
    Remembers (s.setLock symbol lock) past := ⟨h.symbols, h.cached, h.fetching⟩

theorem Remembers.hit (h : Remembers s past) (hcall : s.calls[id]? = some ⟨symbol, .waiting⟩)
    (entry : CacheEntry) : Remembers (s.hit id symbol entry) past where
  symbols := (map_symbol_set hcall _).trans h.symbols
  cached := h.cached
  fetching := fun k other stale hk =>
    h.fetching k other stale (NewsState.fetching_set (by simp) hk).2

theorem Remembers.miss (h : Remembers s past) (hcall : s.calls[id]? = some ⟨symbol, .waiting⟩) :
    Remembers (s.miss id symbol (s.cache symbol)) past where
  symbols := (map_symbol_set hcall _).trans h.symbols
  cached := h.cached
  fetching := by
    intro k other stale hk
    have hk' : (s.calls.set id ⟨symbol, .fetching (s.cache symbol)⟩)[k]? =
        some ⟨other, .fetching stale⟩ := hk
    rw [List.getElem?_set] at hk'
    split at hk'
    · split at hk'
      · cases hk'
        rfl
      · cases hk'
    · exact h.fetching k other stale hk'

theorem Remembers.underLock (h : Remembers s past)
    (hcall : s.calls[id]? = some ⟨symbol, .waiting⟩) (lock : AsyncLock)
    (checkedAt startedAt : ℚ) :
    Remembers (p.underLock s id symbol lock checkedAt startedAt).1 past := by
  rw [CachingNewsProvider.underLock]
  split
  · exact (h.hit hcall _).setLock _ _
  · exact (h.miss hcall).setLock _ _

theorem Remembers.arrive (h : Remembers s past) (symbol : Text) (fastAt checkedAt startedAt : ℚ) :
    Remembers { s with calls := s.calls ++ [⟨symbol, .waiting⟩], clock := startedAt }
      (past ++ [.call symbol fastAt checkedAt startedAt]) where
  symbols := by
    rw [fetchHistory_concat, List.map_append, h.symbols]
    rfl
  cached := by
    intro other
    rw [lastGood, fetchHistory_concat]
    exact h.cached other
  fetching := fun k other stale hk => h.fetching k other stale (NewsState.fetching_append hk)

theorem Remembers.begin (h : Remembers s past) (symbol : Text)
    (fastAt checkedAt startedAt : ℚ) :
    Remembers (p.begin s symbol fastAt checkedAt startedAt).1
      (past ++ [.call symbol fastAt checkedAt startedAt]) := by
  have harrived := h.arrive symbol fastAt checkedAt startedAt
  have hcall : (s.calls ++ [⟨symbol, .waiting⟩])[s.calls.length]? =
      some (⟨symbol, .waiting⟩ : NewsCall) := by simp
  simp only [CachingNewsProvider.begin]
  split
  · exact harrived.hit hcall _
  · split
    · exact harrived.underLock hcall _ _ _
    · exact harrived.setLock _ _

theorem Remembers.land (h : Remembers s past) {tr : List FetchEvent} (hsound : p.Sound s tr)
    {stale : Option CacheEntry} (hcall : s.calls[id]? = some ⟨symbol, .fetching stale⟩)
    (outcome : Except Exn (List Text)) (completedAt readAt : ℚ) :
    Remembers (CachingNewsProvider.land s id symbol stale outcome completedAt readAt).1
      (past ++ [.fetched id outcome completedAt readAt]) := by
  have hsymbol : (fetchHistory past).symbols[id]? = some symbol := by
    rw [← h.symbols, List.getElem?_map, hcall]
    rfl
  have hhistory : fetchHistory (past ++ [.fetched id outcome completedAt readAt]) =
      (fetchHistory past).found symbol (headlinesOf outcome) := by
    rw [fetchHistory_concat, FetchHistory.add, hsymbol]
  refine ⟨?_, ?_, ?_⟩
  · rw [hhistory, FetchHistory.found_symbols, ← h.symbols]
    exact map_symbol_set hcall _
  · intro other
    rw [lastGood, hhistory]
    by_cases ho : other = symbol
    · subst ho
      rw [FetchHistory.found_self, ← lastGood, ← h.cached, ← h.fetching id other stale hcall,
        ← keep_eq, land_cache, Function.update_self]
      rfl
    · rw [FetchHistory.found_other _ ho, ← lastGood, ← h.cached, land_cache,
        Function.update_of_ne ho]
  · intro k other e hk
    obtain ⟨hne, hk'⟩ := NewsState.fetching_set (by simp) hk
    have ho : other ≠ symbol := by
      rintro rfl
      obtain ⟨done, flying, -, hcovers⟩ := hsound.flights other
      obtain ⟨_, hid⟩ := hcovers.fetching id stale hcall
      obtain ⟨_, hk''⟩ := hcovers.fetching k e hk'
      rw [hid] at hk''
      cases hk''
      exact hne rfl
    rw [h.fetching k other e hk', land_cache, Function.update_of_ne ho]

/-- What one step keeps. -/
theorem Remembers.step (h : Remembers s past) {tr es : List FetchEvent} (hsound : p.Sound s tr)
    {l : NewsLabel} (hstep : p.step s l = some (t, es)) : Remembers t (past ++ [l]) := by
  cases stepped hstep with
  | call symbol fastAt checkedAt startedAt times next =>
      have hnext := h.begin (p := p) symbol fastAt checkedAt startedAt
      rwa [next] at hnext
  | resume id symbol lock checkedAt startedAt waits turn times next =>
      have hpast : Remembers { s with clock := startedAt }
          (past ++ [.resume id checkedAt startedAt]) := by
        refine ⟨?_, ?_, h.fetching⟩
        · rw [fetchHistory_concat]
          exact h.symbols
        · intro other
          rw [lastGood, fetchHistory_concat]
          exact h.cached other
      have hnext := hpast.underLock (p := p) waits lock checkedAt startedAt
      rwa [next] at hnext
  | fetched id symbol stale outcome completedAt readAt flies times next =>
      have hnext := h.land hsound flies outcome completedAt readAt
      rwa [next] at hnext

theorem run_remembers (p : CachingNewsProvider) {clock : ℚ} {tr : List FetchEvent}
    (hr : p.recentHeadlines.run (.initial clock) past = some (s, tr)) : Remembers s past := by
  have hboth := Machine.run_invariant_labels
    (I := fun s past => (∃ tr, p.Sound s tr) ∧ Remembers s past)
    (fun s l s' es past h hstep => by
      obtain ⟨⟨tr, hsound⟩, hpast⟩ := h
      exact ⟨⟨_, hsound.step hstep⟩, hpast.step hsound hstep⟩)
    ⟨⟨[], initial_sound p clock⟩, initial_remembers clock⟩ hr
  exact hboth.2

/-! ### What a call answers -/

/-- An answer that was there before, or is what the cache holds for the symbol. -/
def Answers (s t : NewsState) : Prop :=
  ∀ (id : Nat) (symbol : Text) (headlines : List Text),
    t.calls[id]? = some ⟨symbol, .returned headlines⟩ →
    s.calls[id]? = some ⟨symbol, .returned headlines⟩ ∨
      headlines = CacheEntry.known (t.cache symbol)

theorem answers_set {calls : List NewsCall} {k : Nat} {other : Text} {phase : NewsPhase}
    {headlines : List Text}
    (h : (calls.set k ⟨other, phase⟩)[id]? = some ⟨symbol, .returned headlines⟩) :
    calls[id]? = some ⟨symbol, .returned headlines⟩ ∨
      other = symbol ∧ phase = .returned headlines := by
  rw [List.getElem?_set] at h
  split at h
  · split at h
    · cases h
      exact .inr ⟨rfl, rfl⟩
    · cases h
  · exact .inl h

theorem answers_hit {entry : CacheEntry} (h : s.cache symbol = some entry) (id : Nat) :
    Answers s (s.hit id symbol entry) := by
  intro k other headlines hk
  obtain hold | ⟨rfl, hnew⟩ := answers_set hk
  · exact .inl hold
  · cases hnew
    exact .inr (congrArg CacheEntry.known h).symm

theorem answers_underLock (s : NewsState) (id : Nat) (symbol : Text) (lock : AsyncLock)
    (checkedAt startedAt : ℚ) :
    Answers s (p.underLock s id symbol lock checkedAt startedAt).1 := by
  rw [CachingNewsProvider.underLock]
  split
  · rename_i hfresh
    exact answers_hit (cache_of_fresh? hfresh) id
  · intro k other headlines hk
    obtain hold | ⟨-, hnew⟩ := answers_set hk
    · exact .inl hold
    · cases hnew

theorem answers_arrive (s : NewsState) (symbol : Text) (now : ℚ) :
    Answers s { s with calls := s.calls ++ [⟨symbol, .waiting⟩], clock := now } := by
  intro k other headlines hk
  rw [List.getElem?_append] at hk
  split at hk
  · exact .inl hk
  · rw [List.getElem?_singleton] at hk
    split at hk
    · cases hk
    · cases hk

theorem Answers.trans {u : NewsState} (h : Answers s t) (h' : Answers t u)
    (hcache : u.cache = t.cache) : Answers s u := by
  intro k other headlines hk
  obtain hold | hnew := h' k other headlines hk
  · rw [hcache]
    exact h k other headlines hold
  · exact .inr hnew

theorem underLock_cache (s : NewsState) (id : Nat) (symbol : Text) (lock : AsyncLock)
    (checkedAt startedAt : ℚ) :
    (p.underLock s id symbol lock checkedAt startedAt).1.cache = s.cache := by
  rw [CachingNewsProvider.underLock]
  split
  · rfl
  · rfl

/-- Every answer that a step gives is what the cache holds after it. -/
theorem answers_step {l : NewsLabel} {es : List FetchEvent} (hstep : p.step s l = some (t, es)) :
    Answers s t := by
  cases stepped hstep with
  | call symbol fastAt checkedAt startedAt times next =>
      have harrived := answers_arrive s symbol startedAt
      have hnext : Answers s (p.begin s symbol fastAt checkedAt startedAt).1 := by
        simp only [CachingNewsProvider.begin]
        split
        · rename_i hfresh
          refine harrived.trans ?_ rfl
          apply answers_hit
          exact cache_of_fresh? hfresh
        · split
          · exact harrived.trans (answers_underLock _ _ _ _ _ _) (underLock_cache ..)
          · exact harrived
      rwa [next] at hnext
  | resume id symbol lock checkedAt startedAt waits turn times next =>
      have hnext := answers_underLock (p := p) { s with clock := startedAt } id symbol lock
        checkedAt startedAt
      rw [next] at hnext
      exact hnext
  | fetched id symbol stale outcome completedAt readAt flies times next =>
      obtain rfl : (land s id symbol stale outcome completedAt readAt).1 = t := by rw [next]
      intro k other headlines hk
      obtain hold | ⟨rfl, hnew⟩ := answers_set hk
      · exact .inl hold
      · cases hnew
        rw [land_cache, Function.update_self]
        exact .inr rfl

end CachingNewsProvider
end NexusBackend
