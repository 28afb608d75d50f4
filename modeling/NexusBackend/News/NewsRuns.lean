import NexusBackend.News.NewsWiring

/-!
What the provider that the factory builds returns, over whole runs of its caches: titles of items
that were fetched for the symbol, eight at most, and no two the same where feeds are merged.
-/
namespace NexusBackend

open Python Transition

/-! ### The lists in a cache -/

/-- The call holds the list: it has returned it, or keeps it for a fetch that finds nothing. -/
def NewsPhase.Holds (headlines : List Text) : NewsPhase → Prop
  | .waiting => False
  | .fetching stale => stale.map CacheEntry.headlines = some headlines
  | .returned kept => kept = headlines

namespace NewsState

/-- The list is somewhere in the state, for this symbol. -/
def Lists (s : NewsState) (symbol : Text) (headlines : List Text) : Prop :=
  (s.cache symbol).map CacheEntry.headlines = some headlines ∨
    ∃ (id : Nat) (phase : NewsPhase), s.calls[id]? = some ⟨symbol, phase⟩ ∧ phase.Holds headlines

variable {s : NewsState} {symbol other : Text} {headlines : List Text}

theorem lists_setPhase {id : Nat} {phase : NewsPhase}
    (h : (s.setPhase id other phase).Lists symbol headlines) :
    s.Lists symbol headlines ∨ other = symbol ∧ phase.Holds headlines := by
  rcases h with h | ⟨k, found, hk, hholds⟩
  · exact .inl (.inl h)
  · change (s.calls.set id ⟨other, phase⟩)[k]? = _ at hk
    rw [List.getElem?_set] at hk
    split at hk
    · split at hk
      · cases hk
        exact .inr ⟨rfl, hholds⟩
      · cases hk
    · exact .inl (.inr ⟨k, found, hk, hholds⟩)

theorem lists_setEntry {entry : CacheEntry}
    (h : (s.setEntry other entry).Lists symbol headlines) :
    s.Lists symbol headlines ∨ other = symbol ∧ entry.headlines = headlines := by
  rcases h with h | h
  · change (Function.update s.cache other (some entry) symbol).map _ = _ at h
    by_cases hsame : symbol = other
    · subst hsame
      rw [Function.update_self] at h
      exact .inr ⟨rfl, Option.some.inj h⟩
    · rw [Function.update_of_ne hsame] at h
      exact .inl (.inl h)
  · exact .inl (.inr h)

theorem lists_arrived (now : ℚ)
    (h : NewsState.Lists { s with calls := s.calls ++ [⟨other, .waiting⟩], clock := now } symbol
      headlines) :
    s.Lists symbol headlines := by
  rcases h with h | ⟨k, found, hk, hholds⟩
  · exact .inl h
  · rw [List.getElem?_append] at hk
    split at hk
    · exact .inr ⟨k, found, hk, hholds⟩
    · rw [List.getElem?_singleton] at hk
      split at hk
      · cases hk
        exact hholds.elim
      · cases hk

theorem lists_hit {id : Nat} {entry : CacheEntry} (hentry : s.cache other = some entry)
    (h : (s.hit id other entry).Lists symbol headlines) : s.Lists symbol headlines := by
  rcases lists_setPhase (s := s) h with h | ⟨rfl, hholds⟩
  · exact h
  · refine .inl ?_
    rw [hentry]
    exact congrArg some hholds

theorem lists_miss {id : Nat}
    (h : (s.miss id other (s.cache other)).Lists symbol headlines) : s.Lists symbol headlines := by
  rcases lists_setPhase (s := s) h with h | ⟨rfl, hholds⟩
  · exact h
  · exact .inl hholds

end NewsState

namespace CachingNewsProvider

variable {p : CachingNewsProvider} {s t : NewsState} {symbol other : Text} {headlines : List Text}

theorem lists_underLock {id : Nat} {lock : AsyncLock} {checkedAt startedAt : ℚ}
    (h : (p.underLock s id other lock checkedAt startedAt).1.Lists symbol headlines) :
    s.Lists symbol headlines := by
  rw [underLock] at h
  split at h
  · rename_i entry hfresh
    exact NewsState.lists_hit (Option.eq_some_of_filter_eq_some hfresh) h
  · exact NewsState.lists_miss h

theorem lists_begin {fastAt checkedAt startedAt : ℚ}
    (h : (p.begin s other fastAt checkedAt startedAt).1.Lists symbol headlines) :
    s.Lists symbol headlines := by
  simp only [begin] at h
  split at h
  · rename_i entry hfresh
    exact NewsState.lists_arrived startedAt
      (NewsState.lists_hit (Option.eq_some_of_filter_eq_some hfresh) h)
  · split at h
    · exact NewsState.lists_arrived startedAt (lists_underLock h)
    · exact NewsState.lists_arrived startedAt h

theorem lists_land {id : Nat} {stale : Option CacheEntry} {outcome : Except Exn (List Text)}
    {completedAt readAt : ℚ} (hcall : s.calls[id]? = some ⟨other, .fetching stale⟩)
    (h : (land s id other stale outcome completedAt readAt).1.Lists symbol headlines) :
    s.Lists symbol headlines ∨ other = symbol ∧ headlinesOf outcome = headlines := by
  have hkept (hkeep : keep stale (headlinesOf outcome) = headlines) :
      s.Lists other headlines ∨ headlinesOf outcome = headlines := by
    cases stale with
    | none => exact .inr hkeep
    | some entry =>
        rw [keep] at hkeep
        split at hkeep
        · exact .inl (.inr ⟨id, _, hcall, congrArg some hkeep⟩)
        · exact .inr hkeep
  rcases NewsState.lists_setPhase (s := NewsState.setEntry { s with clock := readAt } other
      ⟨keep stale (headlinesOf outcome), readAt⟩) h with h | ⟨rfl, hholds⟩
  · rcases NewsState.lists_setEntry (s := { s with clock := readAt }) h with h | ⟨rfl, hentry⟩
    · exact .inl h
    · exact (hkept hentry).imp_right fun hnew => ⟨rfl, hnew⟩
  · exact (hkept hholds).imp_right fun hnew => ⟨rfl, hnew⟩

/-- A list that a step brings in is what a fetch for the symbol has returned. -/
theorem lists_step {l : NewsLabel} {es : List FetchEvent} (hstep : p.step s l = some (t, es))
    (h : t.Lists symbol headlines) :
    s.Lists symbol headlines ∨ ∃ id stale outcome completedAt readAt,
      l = .fetched id outcome completedAt readAt ∧
        s.calls[id]? = some ⟨symbol, .fetching stale⟩ ∧ headlinesOf outcome = headlines := by
  cases stepped hstep with
  | call other fastAt checkedAt startedAt times next =>
      obtain rfl : _ = t := congrArg Prod.fst next
      exact .inl (lists_begin h)
  | resume id other lock checkedAt startedAt waits turn times next =>
      obtain rfl : _ = t := congrArg Prod.fst next
      exact .inl (lists_underLock (s := { s with clock := startedAt }) h)
  | fetched id other stale outcome completedAt readAt flies times next =>
      obtain rfl : _ = t := congrArg Prod.fst next
      rcases lists_land flies h with h | ⟨rfl, hnew⟩
      · exact .inl h
      · exact .inr ⟨id, stale, outcome, completedAt, readAt, rfl, flies, hnew⟩

end CachingNewsProvider

/-! ### A feed behind its cache -/

/-- What the environment does at a step: a fetch for the symbol ends with what the GET of each URL
comes to. -/
inductive FeedLabel
  | call (symbol : Text) (fastAt checkedAt startedAt : ℚ)
  | resume (id : Nat) (checkedAt startedAt : ℚ)
  | fetched (id : Nat) (symbol : Text) (answer : Text → FeedAnswer) (completedAt readAt : ℚ)

namespace CachedFeed

variable (inner : CachedFeed) (parse : Text → Except Exn Element)

/-- The inner provider of the cache is the feed. -/
def newsLabel : FeedLabel → NewsLabel
  | .call symbol fastAt checkedAt startedAt => .call symbol fastAt checkedAt startedAt
  | .resume id checkedAt startedAt => .resume id checkedAt startedAt
  | .fetched id symbol answer completedAt readAt =>
      .fetched id (inner.feed.recentHeadlines parse answer symbol) completedAt readAt

/-- The symbol that the label names is the one that the call is for. -/
def IsFor (s : NewsState) : FeedLabel → Prop
  | .fetched id symbol _ _ _ => (s.calls[id]?).map NewsCall.symbol = some symbol
  | _ => True

instance (s : NewsState) (l : FeedLabel) : Decidable (IsFor s l) := by
  cases l with
  | call symbol fastAt checkedAt startedAt => exact .isTrue trivial
  | resume id checkedAt startedAt => exact .isTrue trivial
  | fetched id symbol answer completedAt readAt =>
      exact inferInstanceAs (Decidable (_ = some symbol))

def step (s : NewsState) (l : FeedLabel) : Option (NewsState × List FetchEvent) :=
  if IsFor s l then inner.cache.step s (inner.newsLabel parse l) else none

def recentHeadlines : Machine NewsState FeedLabel FetchEvent := ⟨inner.step parse⟩

/-- A fetch for the symbol has found these headlines: they are a shortlist of the titles that were
answered at its URL. -/
def Fetched (past : List FeedLabel) (symbol : Text) (headlines : List Text) : Prop :=
  ∃ id answer completedAt readAt url, .fetched id symbol answer completedAt readAt ∈ past ∧
    inner.feed.buildUrl symbol = .ok url ∧
      Shortlist maxHeadlines headlines ((answer url).titles parse)

variable {inner parse}

theorem fetched_step {s t : NewsState} {l : FeedLabel} {es : List FetchEvent}
    {past : List FeedLabel}
    (h : ∀ symbol headlines, s.Lists symbol headlines →
      headlines = [] ∨ inner.Fetched parse past symbol headlines)
    (hstep : inner.step parse s l = some (t, es)) (symbol : Text) (headlines : List Text)
    (hlist : t.Lists symbol headlines) :
    headlines = [] ∨ inner.Fetched parse (past ++ [l]) symbol headlines := by
  obtain ⟨hfor, hstep⟩ := Option.ite_none_right_eq_some.mp hstep
  obtain hold | ⟨id, stale, outcome, completedAt, readAt, hl, hcall, hfound⟩ :=
    CachingNewsProvider.lists_step hstep hlist
  · refine (h symbol headlines hold).imp_right ?_
    rintro ⟨id, answer, completedAt, readAt, url, hpast, hurl⟩
    exact ⟨id, answer, completedAt, readAt, url, List.mem_append_left _ hpast, hurl⟩
  · cases l with
    | call other fastAt checkedAt startedAt => cases hl
    | resume k checkedAt startedAt => cases hl
    | fetched k other answer completed read =>
        cases hl
        change (s.calls[id]?).map NewsCall.symbol = some other at hfor
        rw [hcall] at hfor
        obtain rfl := Option.some.inj hfor
        cases hanswer : inner.feed.recentHeadlines parse answer symbol with
        | error e =>
            rw [hanswer] at hfound
            exact .inl hfound.symm
        | ok found =>
            rw [hanswer] at hfound
            obtain rfl : found = headlines := hfound
            obtain ⟨url, hurl, hshort⟩ := GoogleNewsRssProvider.recentHeadlines_ok hanswer
            exact .inr ⟨id, answer, completedAt, readAt, url,
              List.mem_append_right _ (List.mem_singleton_self _), hurl, hshort⟩

theorem run_fetched {clock : ℚ} {past : List FeedLabel} {s : NewsState} {tr : List FetchEvent}
    (hr : (inner.recentHeadlines parse).run (.initial clock) past = some (s, tr)) (symbol : Text)
    (headlines : List Text) (hlist : s.Lists symbol headlines) :
    headlines = [] ∨ inner.Fetched parse past symbol headlines := by
  have hinitial : ∀ symbol headlines, (NewsState.initial clock).Lists symbol headlines →
      headlines = [] ∨ inner.Fetched parse [] symbol headlines := by
    rintro symbol headlines (h | ⟨id, phase, h, -⟩)
    · cases h
    · cases h
  exact Machine.run_invariant_labels
    (I := fun s past => ∀ symbol headlines, s.Lists symbol headlines →
      headlines = [] ∨ inner.Fetched parse past symbol headlines)
    (fun s l t es past h hstep => fetched_step h hstep) hinitial hr symbol headlines hlist

/-- In some run of these labels, whatever the clock, a call for the symbol returns the list. -/
def Returns (inner : CachedFeed) (parse : Text → Except Exn Element) (past : List FeedLabel)
    (symbol : Text) (headlines : List Text) : Prop :=
  ∃ clock s tr, (inner.recentHeadlines parse).run (.initial clock) past = some (s, tr) ∧
    ∃ id : Nat, s.calls[id]? = some ⟨symbol, .returned headlines⟩

theorem Returns.fetched {past : List FeedLabel} {symbol : Text} {headlines : List Text}
    (h : inner.Returns parse past symbol headlines) :
    headlines = [] ∨ inner.Fetched parse past symbol headlines := by
  obtain ⟨clock, s, tr, hr, id, hcall⟩ := h
  exact run_fetched hr symbol headlines (.inr ⟨id, _, hcall, rfl⟩)

end CachedFeed

/-! ### The provider of the settings -/

namespace NewsProviderInstance

/-- What a call returns, after runs of the caches of the inner providers. -/
def Returns (t : CaseTable) (parse : Text → Except Exn Element) (past : Nat → List FeedLabel)
    (symbol : Text) (headlines : List Text) : NewsProviderInstance → Prop
  | cached inner => inner.Returns parse (past 0) symbol headlines
  | composite inners merge =>
      ∃ (returned : Returned) (failures : Nat),
        (∀ (k : Nat) (inner : CachedFeed), inners[k]? = some inner →
          inner.Returns parse (past k) symbol (returned k)) ∧
        (merge.recentHeadlines t returned symbol failures).1 = headlines

/-- The title was in the answer to a fetch of an inner provider for the symbol. -/
def WasFetched (parse : Text → Except Exn Element) (past : Nat → List FeedLabel) (symbol : Text)
    (instance' : NewsProviderInstance) (title : Text) : Prop :=
  ∃ (k : Nat) (inner : CachedFeed) (headlines : List Text), instance'.inners[k]? = some inner ∧
    inner.Fetched parse (past k) symbol headlines ∧ title ∈ headlines

theorem WasFetched.title {parse : Text → Except Exn Element} {past : Nat → List FeedLabel}
    {symbol : Text} {instance' : NewsProviderInstance} {title : Text}
    (h : instance'.WasFetched parse past symbol title) : title ≠ [] ∧ IsTrimmed title := by
  obtain ⟨k, inner, headlines, -, ⟨id, answer, completedAt, readAt, url, -, -, hshort⟩, htitle⟩ := h
  exact FeedAnswer.mem_titles (hshort.sublist.subset htitle)

/-- The feeds of a composite are merged up to eight headlines. -/
theorem assemble_composite {cached inners : List CachedFeed}
    {merge : CompositeNewsProvider Returned Exn}
    (h : assemble cached = .ok (some (.composite inners merge))) :
    merge.inners = innersOf inners ∧ merge.maxTotal = maxHeadlines := by
  have hmake (cached : List CachedFeed)
      (h : (CompositeNewsProvider.make (innersOf cached) 8 >>= fun merge =>
        (return some (.composite cached merge) : Except Exn (Option NewsProviderInstance))) =
          .ok (some (.composite inners merge))) :
      merge.inners = innersOf inners ∧ merge.maxTotal = maxHeadlines := by
    obtain ⟨made, hmade, h⟩ := bind_eq_ok_iff.mp h
    cases h
    rw [CompositeNewsProvider.make] at hmade
    split at hmade
    · split at hmade
      · cases hmade
        exact ⟨rfl, rfl⟩
      · cases hmade
    · cases hmade
  cases cached with
  | nil => exact hmake [] h
  | cons first rest =>
      cases rest with
      | nil => cases h
      | cons next rest => exact hmake (first :: next :: rest) h

theorem buildNewsProvider_assembles {t : CaseTable} {provider locales : Text} {cacheTtlSeconds : ℚ}
    {instance' : NewsProviderInstance}
    (h : buildNewsProvider t provider cacheTtlSeconds locales = .ok (some instance')) :
    ∃ cached, assemble cached = .ok (some instance') := by
  rw [buildNewsProvider] at h
  split at h
  · cases h
  · split at h
    · cases h
    · obtain ⟨cached, -, h⟩ := bind_eq_ok_iff.mp h
      exact ⟨cached, h⟩

theorem gather_innersOf {inners : List CachedFeed} {merge : CompositeNewsProvider Returned Exn}
    (h : merge.inners = innersOf inners) (returned : Returned) (symbol : Text) :
    merge.gather returned symbol = (List.range inners.length).map fun k => .ok (returned k) := by
  rw [CompositeNewsProvider.gather, h, innersOf, List.map_map]
  rfl

/-- What the merge returns was returned by one of the inner providers. -/
theorem merged_sound (t : CaseTable) {inners : List CachedFeed}
    {merge : CompositeNewsProvider Returned Exn} (hinners : merge.inners = innersOf inners)
    (returned : Returned) (symbol : Text) (failures : Nat) :
    let headlines := (merge.recentHeadlines t returned symbol failures).1
    headlines.length ≤ merge.maxTotal ∧
      (headlines.map (CompositeNewsProvider.headlineKey t)).Nodup ∧
        ∀ title ∈ headlines, ∃ k < inners.length, title ∈ returned k := by
  have hmerge : (merge.recentHeadlines t returned symbol failures).1 =
      (KeyedTable.addAllNew (CompositeNewsProvider.headlineKey t) []
        (CompositeNewsProvider.candidates (merge.gather returned symbol))).take merge.maxTotal :=
    CompositeNewsProvider.mergeResults_headlines (CompositeNewsProvider.short_nil t merge)
      failures _
  rw [hmerge]
  refine ⟨List.length_take_le _ _, ?_, ?_⟩
  · have hempty : (([] : List Text).map (CompositeNewsProvider.headlineKey t)).Nodup :=
      List.nodup_nil
    rw [List.map_take]
    exact (KeyedTable.nodup_addAllNew hempty _).sublist (List.take_sublist _ _)
  · intro title htitle
    rcases KeyedTable.mem_addAllNew (List.mem_of_mem_take htitle) with hnil | hmem
    · cases hnil
    · obtain ⟨result, hresult, hin⟩ := List.mem_flatMap.mp (List.mem_filter.mp hmem).1
      rw [gather_innersOf hinners] at hresult
      obtain ⟨k, hk, rfl⟩ := List.mem_map.mp hresult
      exact ⟨k, List.mem_range.mp hk, hin⟩

end NewsProviderInstance

/-- Whatever the feeds answer, and however the calls and fetches of the caches interleave: a call
of the provider that the settings ask for returns eight headlines at most, each the title of an
item that a fetch for the symbol has found, and no two of them the same when there are several
feeds. -/
theorem builtProvider_headlines (t : CaseTable) (parse : Text → Except Exn Element)
    {provider locales : Text} {cacheTtlSeconds : ℚ} {instance' : NewsProviderInstance}
    (hbuild : buildNewsProvider t provider cacheTtlSeconds locales = .ok (some instance'))
    {past : Nat → List FeedLabel} {symbol : Text} {headlines : List Text}
    (h : instance'.Returns t parse past symbol headlines) :
    headlines.length ≤ maxHeadlines ∧
      (∀ title ∈ headlines, title ≠ [] ∧ IsTrimmed title ∧
        instance'.WasFetched parse past symbol title) ∧
      (instance'.inners.length ≠ 1 →
        (headlines.map (CompositeNewsProvider.headlineKey t)).Nodup) := by
  have hfound (hall : ∀ title ∈ headlines, instance'.WasFetched parse past symbol title) :
      ∀ title ∈ headlines, title ≠ [] ∧ IsTrimmed title ∧
        instance'.WasFetched parse past symbol title := by
    intro title htitle
    have hwas := hall title htitle
    exact ⟨hwas.title.1, hwas.title.2, hwas⟩
  cases instance' with
  | cached inner =>
      rcases CachedFeed.Returns.fetched h with rfl | hfetched
      · exact ⟨Nat.zero_le _, nofun, fun hone => absurd rfl hone⟩
      · have hshort := hfetched
        obtain ⟨id, answer, completedAt, readAt, url, -, -, hshort⟩ := hshort
        refine ⟨hshort.length, hfound ?_, fun hone => absurd rfl hone⟩
        intro title htitle
        exact ⟨0, inner, headlines, rfl, hfetched, htitle⟩
  | composite inners merge =>
      obtain ⟨returned, failures, hreturned, rfl⟩ := h
      obtain ⟨cached, hcached⟩ := NewsProviderInstance.buildNewsProvider_assembles hbuild
      obtain ⟨hinners, htotal⟩ := NewsProviderInstance.assemble_composite hcached
      obtain ⟨hlength, hnodup, hmem⟩ :=
        NewsProviderInstance.merged_sound t hinners returned symbol failures
      refine ⟨htotal ▸ hlength, hfound ?_, fun _ => hnodup⟩
      intro title htitle
      obtain ⟨k, hk, hin⟩ := hmem title htitle
      obtain ⟨inner, hinner⟩ : ∃ inner, inners[k]? = some inner :=
        ⟨inners[k], List.getElem?_eq_getElem hk⟩
      rcases (hreturned k inner hinner).fetched with hnil | hfetched
      · rw [hnil] at hin
        cases hin
      · exact ⟨k, inner, returned k, hinner, hfetched, hin⟩

/-- A document with a title of its own and two items. -/
def twoItems (first second : String) : Element :=
  .node (text "rss") none [.node (text "channel") none
    [.node (text "title") (some (text "News")) [],
      .node (text "item") none [.node (text "title") (some (text first)) []],
      .node (text "item") none [.node (text "title") (some (text second)) []]]]

def parseTwo (s : Text) : Except Exn Element :=
  if s = text "en" then .ok (twoItems "Chips " "Strike")
  else if s = text "ko" then .ok (twoItems "CHIPS" "Earnings")
  else raise parseError

def tenMinuteCache : CachingNewsProvider := ⟨600, by norm_num⟩

def englishAndKorean : List CachedFeed :=
  [⟨⟨text "en-US", text "US", text "US:en"⟩, tenMinuteCache⟩,
    ⟨⟨text "ko-KR", text "KR", text "KR:ko"⟩, tenMinuteCache⟩]

def eachFetched (k : Nat) : List FeedLabel :=
  [.call (text "A") 0 0 0,
    .fetched 0 (text "A") (fun _ => .response 200 (text (if k = 0 then "en" else "ko"))) 1 1]

def eachReturned (k : Nat) : List Text :=
  if k = 0 then [text "Chips", text "Strike"] else [text "CHIPS", text "Earnings"]

def mergedFeeds : CompositeNewsProvider Returned Exn :=
  ⟨innersOf englishAndKorean, 8, List.cons_ne_nil _ _, Nat.succ_pos 7⟩

theorem buildNewsProvider_twoLocales :
    buildNewsProvider .ascii (text "google_rss") 600 (text "en, KO") =
      .ok (some (.composite englishAndKorean mergedFeeds)) := by
  have hasked : askedProvider .ascii (text "google_rss") = text "google_rss" := by decide +kernel
  have hlocales : parseLocaleList .ascii (text "en, KO") = [text "en", text "ko"] := by
    decide +kernel
  have hcache : CachingNewsProvider.make 600 = .ok tenMinuteCache := dif_pos tenMinuteCache.ttl_pos
  have hfeed {token : Text} {feed : GoogleNewsRssProvider} (h : localeFeed? token = some feed) :
      cachedFeed 600 token = .ok ⟨feed, tenMinuteCache⟩ := by
    rw [cachedFeed, h, hcache]
    rfl
  have hfeeds : [text "en", text "ko"].mapM (cachedFeed 600) = .ok englishAndKorean :=
    mapM_eq_ok_iff.mpr (.cons (hfeed rfl) (.cons (hfeed rfl) .nil))
  have hmake : CompositeNewsProvider.make (innersOf englishAndKorean) 8 = .ok mergedFeeds := by
    have hne : innersOf englishAndKorean ≠ [] := mergedFeeds.inners_ne
    rw [CompositeNewsProvider.make, dif_pos hne, dif_pos (by decide)]
    rfl
  have hdiffers : text "google_rss" ≠ text "none" := by decide
  rw [buildNewsProvider, hasked, hlocales, hfeeds, if_neg hdiffers, if_neg (not_not.mpr rfl)]
  change (CompositeNewsProvider.make (innersOf englishAndKorean) 8 >>= fun merge =>
    .ok (some (NewsProviderInstance.composite englishAndKorean merge))) = _
  rw [hmake]
  rfl

theorem twoLocales_headlines :
    NewsProviderInstance.Returns .ascii parseTwo eachFetched (text "A")
        [text "Chips", text "Strike", text "Earnings"] (.composite englishAndKorean mergedFeeds) ∧
      NewsProviderInstance.WasFetched parseTwo eachFetched (text "A")
        (.composite englishAndKorean mergedFeeds) (text "Earnings") := by
  have hone (k : Nat) (inner : CachedFeed) (hk : englishAndKorean[k]? = some inner) :
      inner.Returns parseTwo (eachFetched k) (text "A") (eachReturned k) := by
    have hrun : ((inner.recentHeadlines parseTwo).run (.initial 0) (eachFetched k)).map
        (fun out => out.1.calls[0]?) = some (some ⟨text "A", .returned (eachReturned k)⟩) := by
      match k, hk with
      | 0, rfl => decide +kernel
      | 1, rfl => decide +kernel
    obtain ⟨⟨s, tr⟩, hr, hcall⟩ := Option.map_eq_some_iff.mp hrun
    exact ⟨0, s, tr, hr, 0, hcall⟩
  have hreturns : NewsProviderInstance.Returns .ascii parseTwo eachFetched (text "A")
      [text "Chips", text "Strike", text "Earnings"] (.composite englishAndKorean mergedFeeds) :=
    ⟨eachReturned, 0, hone, by decide +kernel⟩
  refine ⟨hreturns, ?_⟩
  obtain ⟨-, hfound, -⟩ :=
    builtProvider_headlines .ascii parseTwo buildNewsProvider_twoLocales hreturns
  exact (hfound (text "Earnings") (by decide)).2.2

end NexusBackend
