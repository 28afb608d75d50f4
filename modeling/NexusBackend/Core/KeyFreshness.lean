import NexusBackend.Core.JwksRuns

/-!
What the signing keys promise over every interleaving: a key is young, refreshes do not
pile up, and a failed refresh leaves the cache as it was.
-/
namespace NexusBackend

open Python Transition Machine

variable {α : Type}

/-! ### Facts about the events -/

theorem startsOf_append_le (id : Nat) (tr post : List (JwksEvent α)) :
    startsOf id tr ≤ startsOf id (tr ++ post) := by
  rw [startsOf, startsOf, List.countP_append]
  exact Nat.le_add_right _ _

/-- The call whose refresh is in flight has started it. -/
theorem startsOf_pos {tr : List (JwksEvent α)} {id : Nat} (h : flyingAfter tr = some id) :
    0 < startsOf id tr := by
  induction tr using List.reverseRecOn with
  | nil => cases h
  | append_singleton tr e ih =>
      rw [flyingAfter_concat] at h
      rw [startsOf_concat]
      cases e with
      | refreshStarted i kid now =>
          cases h
          simp [JwksEvent.startedBy]
      | refreshed i cache => cases h
      | refreshFailed i e => cases h
      | answered i a => exact Nat.add_pos_left (ih h) _

/-- With nothing in flight, there was no refresh, or one has failed, or the cache is what one
has stored. -/
theorem flyingAfter_none (kept : JwksCache) {tr : List (JwksEvent α)}
    (h : flyingAfter tr = none) :
    starts tr = 0 ∨ (∃ id e, .refreshFailed id e ∈ tr) ∨
      ∃ id, .refreshed id (lastCache kept tr) ∈ tr := by
  induction tr using List.reverseRecOn with
  | nil => exact .inl rfl
  | append_singleton tr e ih =>
      rw [flyingAfter_concat] at h
      rw [lastCache_concat, starts_concat]
      cases e with
      | refreshStarted i kid now => cases h
      | refreshed i cache =>
          exact .inr (.inr ⟨i, List.mem_append_right _ (List.mem_singleton_self _)⟩)
      | refreshFailed i e =>
          exact .inr (.inl ⟨i, e, List.mem_append_right _ (List.mem_singleton_self _)⟩)
      | answered i a =>
          refine (ih h).imp id (Or.imp ?_ ?_)
          · rintro ⟨id, e, hmem⟩
            exact ⟨id, e, List.mem_append_left _ hmem⟩
          · rintro ⟨id, hmem⟩
            exact ⟨id, List.mem_append_left _ hmem⟩

/-- While the refresh of one call is in flight, the cache stays. -/
theorem lastCache_flying (kept : JwksCache) {past mid : List (JwksEvent α)} {id : Nat}
    (h : flyingAfter (past ++ mid) = some id) (hmid : startsOf id mid = 0) :
    lastCache kept (past ++ mid) = lastCache kept past := by
  induction mid using List.reverseRecOn with
  | nil => rw [List.append_nil]
  | append_singleton mid e ih =>
      rw [← List.append_assoc, flyingAfter_concat] at h
      rw [← List.append_assoc, lastCache_concat]
      rw [startsOf_concat, Nat.add_eq_zero_iff] at hmid
      cases e with
      | refreshStarted i kid now =>
          cases h
          simp [JwksEvent.startedBy] at hmid
      | refreshed i cache => cases h
      | refreshFailed i e => cases h
      | answered i a => exact ih h hmid.1

namespace JwksConfig

variable {cfg : JwksConfig} {kept : JwksCache} {tr : List (JwksEvent α)}

theorem startsOf_le_one (h : Grounded (cfg.Justified kept) [] tr) (id : Nat) :
    startsOf id tr ≤ 1 := by
  induction tr using List.reverseRecOn with
  | nil => exact Nat.zero_le _
  | append_singleton tr e ih =>
      obtain ⟨hold, he, -⟩ := grounded_append.mp h
      rw [startsOf_concat]
      cases hby : e.startedBy id with
      | false => exact ih hold
      | true =>
          cases e with
          | refreshStarted i kid now =>
              have hi : i = id := of_decide_eq_true hby
              rw [← hi, show startsOf i tr = 0 from he.2.2]
              exact le_rfl
          | _ => cases hby

/-- The refresh that a call ends is its only one. -/
theorem startsOf_eq_one (h : Grounded (cfg.Justified kept) [] tr) {id : Nat} {e : JwksEvent α}
    (he : e ∈ tr) (hfly : ∀ past, cfg.Justified kept past e → flyingAfter past = some id) :
    startsOf id tr = 1 := by
  obtain ⟨pre, post, rfl, hpre⟩ := h.of_mem he
  have hpos := startsOf_pos (hfly pre hpre)
  have hle := startsOf_append_le id pre (e :: post)
  have hone := startsOf_le_one h id
  omega

/-- A refresh that fails leaves the cache as it was when it started. -/
theorem lastCache_failed {pre mid post : List (JwksEvent α)} {id : Nat} {kid : Json} {now : ℚ}
    {e : Option Exn} (h : Grounded (cfg.Justified kept) []
      ((pre ++ .refreshStarted id kid now :: mid) ++ .refreshFailed id e :: post)) :
    lastCache kept (pre ++ .refreshStarted id kid now :: mid ++ [.refreshFailed id e]) =
      lastCache kept pre := by
  obtain ⟨hbefore, hfly, -⟩ := grounded_append.mp h
  have hone := startsOf_le_one hbefore id
  have hcount : startsOf id (pre ++ .refreshStarted id kid now :: mid) =
      startsOf id pre + (1 + startsOf id mid) := by
    rw [startsOf, startsOf, startsOf, List.countP_append, List.countP_cons_of_pos]
    · rw [Nat.add_comm 1]
    · exact decide_eq_true rfl
  have hsplit : pre ++ .refreshStarted id kid now :: mid =
      pre ++ [.refreshStarted id kid now] ++ mid := by simp
  rw [lastCache_concat]
  change lastCache kept (pre ++ .refreshStarted id kid now :: mid) = _
  change flyingAfter (pre ++ .refreshStarted id kid now :: mid) = _ at hfly
  rw [hsplit] at hfly ⊢
  rw [lastCache_flying kept hfly (by omega), lastCache_concat]
  rfl

/-! ### Answers -/

/-- A key that is returned comes from what some refresh fetched, less than the ttl ago. -/
theorem young_of_answered (hg : Grounded (cfg.Justified {}) [] tr) {id : Nat}
    {a : KeyAnswer α} {key : Json} (ha : .answered id a ∈ tr) (hkey : a.result = .ok key) :
    (∃ j, .refreshed j a.cache ∈ tr) ∧ cfg.Fetched a.cache ∧
      a.cache.lookup a.kid = .ok (some key) ∧ a.cache.fetchedAt ≤ a.now ∧
      a.now - a.cache.fetchedAt < cfg.ttl := by
  obtain ⟨pre, post, rfl, hcache, hanswer⟩ := hg.of_mem ha
  rw [Answers, hkey] at hanswer
  obtain ⟨j, hstored⟩ : ∃ j, .refreshed j a.cache ∈ pre := by
    rw [hcache]
    refine (lastCache_cases {} pre).resolve_left fun hempty => ?_
    apply JwksCache.lookup_nonempty hanswer.1
    rw [hcache, hempty]
  have hmem : .refreshed j a.cache ∈ pre ++ .answered id a :: post :=
    List.mem_append_left _ hstored
  obtain ⟨past, rest, -, hfetched, -⟩ := hg.of_mem hmem
  exact ⟨⟨j, hmem⟩, hfetched, hanswer⟩

/-- A kid that no refresh has found costs its call one refresh and is an error. -/
theorem unpublished_answered (hg : Grounded (cfg.Justified {}) [] tr) {id : Nat}
    {a : KeyAnswer α} {kid : Text} (ha : .answered id a ∈ tr) (hkid : a.kid = .str kid)
    (hnone : ∀ i cache, .refreshed i cache ∈ tr → cache.lookup (.str kid) = .ok none) :
    startsOf id tr = 1 ∧ ∃ e, a.result = .error e ∧
      (.refreshFailed id (some e) ∈ tr ∨
        (∃ cache, .refreshed id cache ∈ tr) ∧ e = cfg.missingKey (.str kid)) := by
  cases hresult : a.result with
  | ok key =>
      obtain ⟨⟨j, hstored⟩, -, hlookup, -⟩ := young_of_answered hg ha hresult
      rw [hkid, hnone j _ hstored] at hlookup
      cases hlookup
  | error e =>
      obtain ⟨pre, post, rfl, -, hanswer⟩ := hg.of_mem ha
      rw [Answers, hresult, hkid] at hanswer
      rcases hanswer with hlookup | hfailed | ⟨hstored, -, rfl⟩
      · cases hlookup
      · have hmem : .refreshFailed id (some e) ∈ pre ++ .answered id a :: post :=
          List.mem_append_left _ hfailed
        exact ⟨startsOf_eq_one hg hmem fun _ hfly => hfly, e, rfl, .inl hmem⟩
      · have hmem : .refreshed id a.cache ∈ pre ++ .answered id a :: post :=
          List.mem_append_left _ hstored
        exact ⟨startsOf_eq_one hg hmem fun _ hfly => hfly.2, _, rfl, .inr ⟨⟨_, hmem⟩, rfl⟩⟩

/-- A call whose refresh succeeds is answered from what it has fetched. -/
def Delivers (cfg : JwksConfig) (tr : List (JwksEvent α)) : Prop :=
  ∀ id cache, .refreshed id cache ∈ tr → ∃ a : KeyAnswer α, .answered id a ∈ tr ∧
    a.cache = cache ∧ a.result = cache.requireKey cfg.printing a.kid

theorem Delivers.append {es : List (JwksEvent α)} (h : cfg.Delivers tr) (hes : cfg.Delivers es) :
    cfg.Delivers (tr ++ es) := by
  intro id cache hmem
  rcases List.mem_append.mp hmem with hmem | hmem
  · obtain ⟨a, ha, hrest⟩ := h id cache hmem
    exact ⟨a, List.mem_append_left _ ha, hrest⟩
  · obtain ⟨a, ha, hrest⟩ := hes id cache hmem
    exact ⟨a, List.mem_append_right _ ha, hrest⟩

theorem delivers_of_unrefreshed (h : ∀ id cache, .refreshed id cache ∉ tr) : cfg.Delivers tr :=
  fun id cache hmem => absurd hmem (h id cache)

theorem underLock_delivers (s : JwksState α) (id : Nat) (c : GetKeyCall α) (lock : AsyncLock)
    (now : ℚ) : cfg.Delivers (cfg.underLock s id c lock now).2 := by
  apply delivers_of_unrefreshed
  intro i cache
  rw [underLock]
  split
  · simp [answer]
  · simp [answer]
  · split
    · simp [failRefresh, answer]
    · simp

theorem begin_delivers (s : JwksState α) (kid : Json) (kept : α) (fastAt lockedAt : ℚ) :
    cfg.Delivers (cfg.begin s kid kept fastAt lockedAt).2 := by
  rw [begin]
  dsimp only
  split
  · exact delivers_of_unrefreshed (by simp [answer])
  · exact delivers_of_unrefreshed (by simp [answer])
  · split
    · exact underLock_delivers _ _ _ _ _
    · exact delivers_of_unrefreshed (by simp)

theorem land_delivers (s : JwksState α) (id : Nat) (c : GetKeyCall α)
    (body : Option (Except Exn (Json × Json))) (closing : Except Exn Unit) (now : ℚ) :
    cfg.Delivers (cfg.land s id c body closing now).2 := by
  rw [land.eq_def]
  split
  · exact delivers_of_unrefreshed (by simp [failRefresh, answer])
  · exact delivers_of_unrefreshed (by simp [cancelRefresh])
  · exact delivers_of_unrefreshed (by simp [failRefresh, answer])
  · split
    · exact delivers_of_unrefreshed (by simp [failRefresh, answer])
    · intro i cache' hmem
      simp only [answer, List.mem_cons, JwksEvent.refreshed.injEq, List.not_mem_nil, or_false,
        reduceCtorEq] at hmem
      obtain ⟨rfl, rfl⟩ := hmem
      exact ⟨_, List.mem_cons_of_mem _ (List.mem_singleton_self _), rfl, rfl⟩

theorem step_delivers {s s' : JwksState α} {l : JwksLabel α} {es : List (JwksEvent α)}
    (hs : cfg.step s l = some (s', es)) : cfg.Delivers es := by
  have hnil : cfg.Delivers ([] : List (JwksEvent α)) := delivers_of_unrefreshed (by simp)
  cases l with
  | call kid kept fastAt lockedAt =>
      rw [step, Option.ite_none_right_eq_some] at hs
      obtain ⟨-, rfl⟩ := Prod.ext_iff.mp (Option.some.inj hs.2)
      exact begin_delivers s kid kept fastAt lockedAt
  | resume id lockedAt =>
      obtain ⟨c, -, hs⟩ := Option.bind_eq_some_iff.mp hs
      split at hs
      · obtain ⟨lock, -, hs⟩ := Option.bind_eq_some_iff.mp hs
        rw [Option.ite_none_right_eq_some] at hs
        obtain ⟨-, rfl⟩ := Prod.ext_iff.mp (Option.some.inj hs.2)
        exact underLock_delivers _ id c lock lockedAt
      · cases hs
  | discovered id answer =>
      obtain ⟨c, -, hs⟩ := Option.bind_eq_some_iff.mp hs
      split at hs
      · cases hs
        exact hnil
      · cases hs
  | keySetFetched id answer =>
      obtain ⟨c, -, hs⟩ := Option.bind_eq_some_iff.mp hs
      split at hs
      · cases hs
        exact hnil
      · cases hs
  | clientClosed id closing now =>
      obtain ⟨c, -, hs⟩ := Option.bind_eq_some_iff.mp hs
      split at hs
      · rw [Option.ite_none_right_eq_some] at hs
        obtain ⟨-, rfl⟩ := Prod.ext_iff.mp (Option.some.inj hs.2)
        exact land_delivers _ id c _ closing now
      · cases hs
  | cancel id =>
      obtain ⟨c, -, hs⟩ := Option.bind_eq_some_iff.mp hs
      rw [cancel] at hs
      split at hs
      · cases hs
        exact hnil
      · cases hs
        exact hnil
      · cases hs
        exact hnil
      · cases hs
        exact delivers_of_unrefreshed (by simp)
      · cases hs

theorem run_delivers {s t : JwksState α} {ls : List (JwksLabel α)}
    (hr : cfg.getKey.run s ls = some (t, tr)) : cfg.Delivers tr :=
  run_invariant (I := fun _ tr => cfg.Delivers tr)
    (fun _ _ _ _ _ h hs => h.append (step_delivers hs))
    (delivers_of_unrefreshed (by simp)) hr

/-! ### A cold cache -/

theorem isFreshFor_mono {ttl now later : ℚ} {cache : JwksCache}
    (h : cache.isFreshFor ttl now = false) (hle : now ≤ later) :
    cache.isFreshFor ttl later = false := by
  rw [JwksCache.isFreshFor, Bool.and_eq_false_iff] at h ⊢
  refine h.imp_right fun hold => ?_
  rw [decide_eq_false_iff_not, not_lt] at hold ⊢
  linarith

theorem found?_of_stale {ttl now : ℚ} {cache : JwksCache} {kid : Text}
    (h : cache.isFreshFor ttl now = false) : cache.found? ttl (.str kid) now = .ok none := by
  rw [JwksCache.found?, h, JwksCache.lookup]
  exact congrArg Except.ok (Option.filter_eq_none_iff.mpr fun _ _ => Bool.false_ne_true)

/-- The first step of a burst is a call, and on a cold cache it starts a refresh. -/
theorem first_call_starts {s s' : JwksState α} {l : JwksLabel α} {es : List (JwksEvent α)}
    {kid : Text} (hidle : s.Idle) (hcold : s.cache.isFreshFor cfg.ttl s.clock = false)
    (hl : Asks (fun k _ => k = .str kid) l) (hs : cfg.step s l = some (s', es)) :
    0 < starts es := by
  have hdone {id : Nat} {c : GetKeyCall α} (hc : s.calls[id]? = some c) : c.phase = .done :=
    hidle.calls c (List.mem_of_getElem? hc)
  cases l with
  | call kid' kept fastAt lockedAt =>
      cases hl
      rw [step, Option.ite_none_right_eq_some] at hs
      obtain ⟨⟨hfast, hlocked⟩, hs⟩ := hs
      obtain ⟨-, rfl⟩ := Prod.ext_iff.mp (Option.some.inj hs)
      have hfound : s.cache.found? cfg.ttl (.str kid) fastAt = .ok none :=
        found?_of_stale (isFreshFor_mono hcold hfast)
      have hagain : s.cache.found? cfg.ttl (.str kid) lockedAt = .ok none :=
        found?_of_stale (isFreshFor_mono hcold (hfast.trans hlocked))
      simp only [begin, hfound, hidle.lock, AsyncLock.acquire?, and_self, if_pos, underLock, hagain]
      cases JwksCache.discoveryUrl cfg.settings <;> simp [starts, JwksEvent.isStart]
  | resume id lockedAt =>
      obtain ⟨c, hc, hs⟩ := Option.bind_eq_some_iff.mp hs
      rw [hdone hc] at hs
      cases hs
  | discovered id answer =>
      obtain ⟨c, hc, hs⟩ := Option.bind_eq_some_iff.mp hs
      rw [hdone hc] at hs
      cases hs
  | keySetFetched id answer =>
      obtain ⟨c, hc, hs⟩ := Option.bind_eq_some_iff.mp hs
      rw [hdone hc] at hs
      cases hs
  | clientClosed id closing now =>
      obtain ⟨c, hc, hs⟩ := Option.bind_eq_some_iff.mp hs
      rw [hdone hc] at hs
      cases hs
  | cancel id =>
      obtain ⟨c, hc, hs⟩ := Option.bind_eq_some_iff.mp hs
      rw [cancel, hdone hc] at hs
      cases hs

/-- Within the ttl, and while every refresh succeeds and finds the kid, there is one. -/
theorem starts_le_one {kid : Text} {first last : ℚ}
    (hg : Grounded (cfg.Justified kept) [] tr) (hsoon : last < first + cfg.ttl)
    (hasked : ∀ i k now, .refreshStarted i k now ∈ tr → k = .str kid)
    (hwithin : ∀ e ∈ tr, e.Within first last)
    (hpublished : ∀ i cache, .refreshed i cache ∈ tr →
      ∃ key, cache.lookup (.str kid) = .ok (some key))
    (hfailed : ∀ i e, .refreshFailed i e ∉ tr) : starts tr ≤ 1 := by
  induction tr using List.reverseRecOn with
  | nil => exact Nat.zero_le _
  | append_singleton tr e ih =>
      have hin {e' : JwksEvent α} (h : e' ∈ tr) : e' ∈ tr ++ [e] := List.mem_append_left _ h
      have hlast : e ∈ tr ++ [e] := List.mem_append_right _ (List.mem_singleton_self _)
      obtain ⟨hold, he, -⟩ := grounded_append.mp hg
      have hjust : cfg.Justified kept tr e := he
      have hbefore := ih hold (fun i k now h => hasked i k now (hin h))
        (fun e' h => hwithin e' (hin h)) (fun i cache h => hpublished i cache (hin h))
        (fun i e' h => hfailed i e' (hin h))
      rw [starts_concat]
      cases e with
      | refreshStarted i k now =>
          cases hasked i k now hlast
          obtain ⟨hmiss, hidle, -⟩ := hjust
          rcases flyingAfter_none kept hidle with hzero | ⟨i', e', hmem⟩ | ⟨i', hmem⟩
          · rw [hzero]
            exact le_rfl
          · exact absurd (hin hmem) (hfailed i' e')
          · obtain ⟨key, hkey⟩ := hpublished i' _ (hin hmem)
            have hstamp : first ≤ (lastCache kept tr).fetchedAt := (hwithin _ (hin hmem)).1
            have hnow : now ≤ last := (hwithin _ hlast).2
            have hyoung : now - (lastCache kept tr).fetchedAt < cfg.ttl := by linarith
            have hkeys : (lastCache kept tr).keys.isEmpty = false := by
              rw [← Bool.not_eq_true, List.isEmpty_iff]
              exact JwksCache.lookup_nonempty hkey
            have hfound : (lastCache kept tr).found? cfg.ttl (.str kid) now = .ok (some key) := by
              rw [JwksCache.found?, hkey, JwksCache.isFreshFor, hkeys, decide_eq_true hyoung]
              rfl
            cases hmiss.symm.trans hfound
      | refreshed i cache => exact hbefore
      | refreshFailed i e => exact hbefore
      | answered i a => exact hbefore

/-- Over every interleaving: keys are young, one refresh is in flight at most, a burst on a
cold cache costs one refresh, a kid nobody publishes costs its call one refresh and is an
error, and a failed refresh leaves the cache as it was. -/
theorem getKey_interleaved (hpos : 0 < cfg.ttl) {clock : ℚ} {ls : List (JwksLabel α)}
    {t : JwksState α} (hr : cfg.getKey.run (.initial clock) ls = some (t, tr)) :
    (∀ id a key, .answered id a ∈ tr → a.result = .ok key →
      (∃ j, .refreshed j a.cache ∈ tr) ∧ cfg.Fetched a.cache ∧
        a.cache.lookup a.kid = .ok (some key) ∧ a.cache.fetchedAt ≤ a.now ∧
        a.now - a.cache.fetchedAt < cfg.ttl) ∧
    (∀ i j, t.InFlight i → t.InFlight j → i = j) ∧
    (∀ kid ls' t' tr', t.Idle → t.cache.isFreshFor cfg.ttl t.clock = false →
      cfg.getKey.run t ls' = some (t', tr') → t'.clock < t.clock + cfg.ttl →
      (∀ l ∈ ls', Asks (fun k _ => k = .str kid) l) →
      (∃ kept fastAt lockedAt, .call (.str kid) kept fastAt lockedAt ∈ ls') →
      (∀ id cache, .refreshed id cache ∈ tr' →
        ∃ key, cache.lookup (.str kid) = .ok (some key)) →
      (∀ id e, .refreshFailed id e ∉ tr') → starts tr' = 1) ∧
    (∀ id, startsOf id tr ≤ 1) ∧
    (∀ kid, (∀ i cache, .refreshed i cache ∈ tr → cache.lookup (.str kid) = .ok none) →
      ∀ id a, .answered id a ∈ tr → a.kid = .str kid →
        startsOf id tr = 1 ∧ ∃ e, a.result = .error e ∧
          (.refreshFailed id (some e) ∈ tr ∨
            (∃ cache, .refreshed id cache ∈ tr) ∧ e = cfg.missingKey (.str kid))) ∧
    cfg.Delivers tr ∧
    t.cache = lastCache {} tr ∧
    ∀ pre mid post id kid now e,
      tr = (pre ++ .refreshStarted id kid now :: mid) ++ .refreshFailed id e :: post →
      lastCache {} (pre ++ .refreshStarted id kid now :: mid ++ [.refreshFailed id e]) =
        lastCache {} pre := by
  have hinitial : (JwksState.initial clock : JwksState α).Idle := ⟨rfl, nofun⟩
  obtain ⟨flying, hs⟩ := sound_run (K := fun _ _ => True) hpos hinitial (.inl rfl)
    (fun l _ => by cases l <;> trivial) hr
  have hg : Grounded (cfg.Justified {}) [] tr := hs.grounded
  refine ⟨fun id a key => young_of_answered hg, ?_, ?_, startsOf_le_one hg, ?_,
    run_delivers hr, hs.cache, ?_⟩
  · intro i j hi hj
    rw [JwksState.InFlight, hs.refreshing, decide_eq_true_eq] at hi hj
    exact Option.some.inj (hi.symm.trans hj)
  · intro kid ls' t' tr' hidle hcold hrun hsoon hasks ⟨kept, fastAt, lockedAt, hcall⟩
      hpublished hfailed
    obtain ⟨flying', hs'⟩ := sound_run hpos hidle hs.stamped hasks hrun
    have hasked (i : Nat) (k : Json) (now : ℚ) (h : .refreshStarted i k now ∈ tr') :
        k = .str kid := (hs'.asked i k now h).choose_spec
    have hle := starts_le_one hs'.grounded hsoon hasked hs'.within hpublished hfailed
    cases ls' with
    | nil => cases hcall
    | cons l rest =>
        obtain ⟨s', es, fs, hstep, -, rfl⟩ := (run_cons _ _ _ _).mp hrun
        have hpos' := first_call_starts hidle hcold (hasks l (List.mem_cons_self)) hstep
        rw [starts, List.countP_append] at hle ⊢
        rw [starts] at hpos'
        omega
  · intro kid hnone id a ha hkid
    exact unpublished_answered hg ha hkid hnone
  · rintro pre mid post id kid now e rfl
    exact lastCache_failed hg

/-- A set-up with a tenant. -/
def sample : JwksConfig where
  settings := { entraTenantId := text "tenant", entraClientId := text "client" }
  printing := ⟨1000, 1000, fun _ => true⟩

/-- Two calls on a cold cache, the second behind the lock of the first. -/
def burst : List (JwksLabel Unit) :=
  [.call (.str (text "k1")) () 5 5, .call (.str (text "k1")) () 6 6,
    .discovered 0 (.ok (.obj [(text "jwks_uri", .str (text "uri"))])),
    .keySetFetched 0 (.ok (.obj [(text "keys", .arr [.obj [(text "kid", .str (text "k1"))]])])),
    .clientClosed 0 (.ok ()) 7, .resume 1 8]

theorem getKey_interleaved_burst :
    ∃ t tr, sample.getKey.run (.initial 5) burst = some (t, tr) ∧ tr.length = 4 ∧
      ∀ id a key, .answered id a ∈ tr → a.result = .ok key →
        a.now - a.cache.fetchedAt < sample.ttl := by
  have hpos : 0 < sample.ttl := by decide +kernel
  have hlength : (sample.getKey.run (.initial 5) burst).map (fun r => r.2.length) = some 4 := by
    decide +kernel
  obtain ⟨⟨t, tr⟩, hr, hfour⟩ := Option.map_eq_some_iff.mp hlength
  refine ⟨t, tr, hr, hfour, fun id a key ha hkey => ?_⟩
  exact ((getKey_interleaved hpos hr).1 id a key ha hkey).2.2.2.2

end JwksConfig
end NexusBackend
