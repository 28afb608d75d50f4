import NexusBackend.News.CachingProvider
import NexusBackend.News.CompositeProvider
import NexusBackend.News.Feeds

/-!
`build_news_provider`: a feed behind a cache for each locale of the settings, and their headlines
as one list when there are several; and what such a provider returns over whole runs.

Each cache has its own lock, so the runs of two of them are independent but for the clock.
-/
namespace NexusBackend

open Python Transition

/-! ### The factory -/

/-- `_LOCALE_PRESETS`. -/
def localePresets : List (Text × GoogleNewsRssProvider) :=
  [(text "en", ⟨text "en-US", text "US", text "US:en"⟩),
    (text "ko", ⟨text "ko-KR", text "KR", text "KR:ko"⟩),
    (text "ja", ⟨text "ja-JP", text "JP", text "JP:ja"⟩),
    (text "zh", ⟨text "zh-CN", text "CN", text "CN:zh-Hans"⟩)]

/-- `_LOCALE_PRESETS[token]`. -/
def localeFeed? (token : Text) : Option GoogleNewsRssProvider := localePresets.lookup token

/-- `token in _LOCALE_PRESETS`. -/
def isLocale (token : Text) : Bool := (localeFeed? token).isSome

/-- The loop over the tokens; `seen` holds what `out` holds. -/
def knownLocales (t : CaseTable) : List Text → List Text → List Text
  | out, [] => out
  | out, raw :: raws =>
      let token := t.lower (strip raw)
      if token = [] ∨ token ∈ out then knownLocales t out raws
      else if isLocale token then knownLocales t (out ++ [token]) raws
      else knownLocales t out raws

/-- `_parse_locale_list`. -/
def parseLocaleList (t : CaseTable) (raw : Text) : List Text :=
  let out := knownLocales t [] (splitAll 44 raw)
  if out = [] then [text "en"] else out

/-- A `CachingNewsProvider` around a feed. -/
structure CachedFeed where
  feed : GoogleNewsRssProvider
  cache : CachingNewsProvider

/-- What each of the inner providers returns to one call. -/
abbrev Returned := Nat → List Text

/-- The inner providers, each by its place; a cache raises nothing. -/
def innersOf (inners : List CachedFeed) : List (Returned → Text → Except Exn (List Text)) :=
  (List.range inners.length).map fun k returned _ => .ok (returned k)

inductive NewsProviderInstance
  | cached (inner : CachedFeed)
  | composite (inners : List CachedFeed) (merge : CompositeNewsProvider Returned Exn)

def cachedFeed (cacheTtlSeconds : ℚ) (token : Text) : Except Exn CachedFeed :=
  match localeFeed? token with
  | none => raise .keyError
  | some feed => CachedFeed.mk feed <$> CachingNewsProvider.make cacheTtlSeconds

/-- The only inner provider, or the composite of them all. -/
def assemble : List CachedFeed → Except Exn (Option NewsProviderInstance)
  | [inner] => return some (.cached inner)
  | inners => do
      let merge ← CompositeNewsProvider.make (innersOf inners) 8
      return some (.composite inners merge)

/-- `(provider or "none").strip().lower()`. -/
def askedProvider (t : CaseTable) (provider : Text) : Text :=
  t.lower (strip (if provider = [] then text "none" else provider))

def buildNewsProvider (t : CaseTable) (provider : Text) (cacheTtlSeconds : ℚ) (locales : Text) :
    Except Exn (Option NewsProviderInstance) := do
  let p := askedProvider t provider
  if p = text "none" then return none
  if p ≠ text "google_rss" then return none
  let cachedPerLocale ← (parseLocaleList t locales).mapM (cachedFeed cacheTtlSeconds)
  assemble cachedPerLocale

namespace NewsProviderInstance

def inners : NewsProviderInstance → List CachedFeed
  | cached inner => [inner]
  | composite inners _ => inners

end NewsProviderInstance

/-- The tokens of the setting that are known, in their order. -/
def localeTokens (t : CaseTable) (raw : Text) : List Text :=
  ((splitAll 44 raw).map fun token => t.lower (strip token)).filter isLocale

theorem knownLocales_eq (t : CaseTable) (out raws : List Text) :
    knownLocales t out raws = KeyedTable.addAllNew id out
      ((raws.map fun token => t.lower (strip token)).filter isLocale) := by
  have hblank : isLocale [] = false := by decide
  induction raws generalizing out with
  | nil => rfl
  | cons raw raws ih =>
      rw [List.map_cons, List.filter_cons]
      simp only [knownLocales]
      by_cases hnil : t.lower (strip raw) = []
      · rw [if_pos (.inl hnil), hnil, hblank]
        exact ih out
      · by_cases hseen : t.lower (strip raw) ∈ out
        · have hadd : KeyedTable.addNew id out (t.lower (strip raw)) = out :=
            if_pos (by rwa [List.map_id])
          rw [if_pos (.inr hseen)]
          split
          · rw [KeyedTable.addAllNew_cons, hadd]
            exact ih out
          · exact ih out
        · have hadd : KeyedTable.addNew id out (t.lower (strip raw)) =
              out ++ [t.lower (strip raw)] := if_neg (by rwa [List.map_id])
          rw [if_neg (not_or.mpr ⟨hnil, hseen⟩)]
          split
          · rw [KeyedTable.addAllNew_cons, hadd]
            exact ih _
          · exact ih out

theorem parseLocaleList_eq (t : CaseTable) (raw : Text) :
    parseLocaleList t raw =
      if localeTokens t raw = [] then [text "en"]
      else firstOccurrences id (localeTokens t raw) := by
  have hnil : KeyedTable.addAllNew id [] (localeTokens t raw) = [] ↔ localeTokens t raw = [] := by
    constructor
    · intro h
      have hkeys (token : Text) : token ∉ localeTokens t raw := by
        intro htoken
        have hmem : token ∈ (KeyedTable.addAllNew id [] (localeTokens t raw)).map id :=
          KeyedTable.mem_keys_addAllNew.mpr (.inr (by rwa [List.map_id]))
        rw [h] at hmem
        cases hmem
      exact List.eq_nil_iff_forall_not_mem.mpr hkeys
    · intro h
      rw [h]
      rfl
  simp only [parseLocaleList, knownLocales_eq]
  change (if KeyedTable.addAllNew id [] (localeTokens t raw) = [] then _ else
    KeyedTable.addAllNew id [] (localeTokens t raw)) = _
  rw [if_congr hnil rfl rfl, addAllNew_nil]

theorem parseLocaleList_ne_nil (t : CaseTable) (raw : Text) : parseLocaleList t raw ≠ [] := by
  simp only [parseLocaleList]
  split
  · exact List.cons_ne_nil _ _
  · assumption

theorem isLocale_of_mem {t : CaseTable} {raw token : Text} (h : token ∈ parseLocaleList t raw) :
    isLocale token = true := by
  rw [parseLocaleList_eq] at h
  split at h
  · rw [List.mem_singleton.mp h]
    decide
  · rw [← addAllNew_nil] at h
    rcases KeyedTable.mem_addAllNew h with hnil | hmem
    · cases hnil
    · exact (List.mem_filter.mp hmem).2

theorem nodup_parseLocaleList (t : CaseTable) (raw : Text) : (parseLocaleList t raw).Nodup := by
  rw [parseLocaleList_eq]
  split
  · exact List.nodup_singleton _
  · have hempty : (([] : List Text).map id).Nodup := List.nodup_nil
    have hnodup := KeyedTable.nodup_addAllNew hempty (localeTokens t raw)
    rwa [addAllNew_nil, List.map_id] at hnodup

/-- No two locales have one preset. -/
theorem localeFeed?_inj {token other : Text} {feed : GoogleNewsRssProvider}
    (h : localeFeed? token = some feed) (h' : localeFeed? other = some feed) : token = other := by
  have hmem {token : Text} (h : localeFeed? token = some feed) : (token, feed) ∈ localePresets := by
    obtain ⟨before, after, hsplit, -⟩ := List.lookup_eq_some_iff.mp h
    rw [hsplit]
    exact List.mem_append_right _ List.mem_cons_self
  have hinj : ∀ a ∈ localePresets, ∀ b ∈ localePresets, a.2 = b.2 → a.1 = b.1 := by decide
  exact hinj _ (hmem h) _ (hmem h') rfl

theorem cachedFeed_ok {cacheTtlSeconds : ℚ} {token : Text} {inner : CachedFeed}
    (h : cachedFeed cacheTtlSeconds token = .ok inner) :
    localeFeed? token = some inner.feed ∧ inner.cache.ttl = cacheTtlSeconds := by
  rw [cachedFeed] at h
  split at h
  · cases h
  · rename_i feed hfeed
    obtain ⟨cache, hcache, rfl⟩ := map_eq_ok_iff.mp h
    rw [CachingNewsProvider.make] at hcache
    split at hcache
    · cases hcache
      exact ⟨hfeed, rfl⟩
    · cases hcache

theorem cachedFeed_of_pos {cacheTtlSeconds : ℚ} (hpos : 0 < cacheTtlSeconds) {token : Text}
    (h : isLocale token = true) : ∃ inner, cachedFeed cacheTtlSeconds token = .ok inner := by
  obtain ⟨feed, hfeed⟩ := Option.isSome_iff_exists.mp h
  refine ⟨⟨feed, ⟨cacheTtlSeconds, hpos⟩⟩, ?_⟩
  rw [cachedFeed, hfeed, CachingNewsProvider.make, dif_pos hpos]
  rfl

theorem cachedFeed_of_not_pos {cacheTtlSeconds : ℚ} (hpos : ¬ 0 < cacheTtlSeconds) {token : Text}
    (h : isLocale token = true) : cachedFeed cacheTtlSeconds token = raise .valueError := by
  obtain ⟨feed, hfeed⟩ := Option.isSome_iff_exists.mp h
  rw [cachedFeed, hfeed, CachingNewsProvider.make, dif_neg hpos]
  rfl

/-- The inner providers are the feeds of the locales, in their order, and none asks at the URL
of another. -/
structure Feeds (cacheTtlSeconds : ℚ) (locales : List Text) (inners : List CachedFeed) :
    Prop where
  feeds : inners.map (fun inner => some inner.feed) = locales.map localeFeed?
  caches : ∀ inner ∈ inners, inner.cache.ttl = cacheTtlSeconds
  apart : ∀ (i j : Nat) (inner other : CachedFeed), inners[i]? = some inner →
    inners[j]? = some other → ∀ symbol symbol' url, inner.feed.buildUrl symbol = .ok url →
      other.feed.buildUrl symbol' = .ok url → i = j

theorem feeds_of_mapM {cacheTtlSeconds : ℚ} {locales : List Text} {inners : List CachedFeed}
    (h : locales.mapM (cachedFeed cacheTtlSeconds) = .ok inners) :
    inners.map (fun inner => some inner.feed) = locales.map localeFeed? := by
  have hall := mapM_eq_ok_iff.mp h
  clear h
  induction hall with
  | nil => rfl
  | cons hinner _ ih => rw [List.map_cons, List.map_cons, ih, (cachedFeed_ok hinner).1]

theorem Feeds.of_mapM {cacheTtlSeconds : ℚ} {locales : List Text} (hnodup : locales.Nodup)
    {inners : List CachedFeed} (h : locales.mapM (cachedFeed cacheTtlSeconds) = .ok inners) :
    Feeds cacheTtlSeconds locales inners where
  feeds := feeds_of_mapM h
  caches inner hinner := by
    obtain ⟨locale, -, hlocale⟩ := mem_of_mapM h hinner
    exact (cachedFeed_ok hlocale).2
  apart i j inner other hi hj symbol symbol' url hurl hurl' := by
    have hat (k : Nat) (cached : CachedFeed) (hk : inners[k]? = some cached) :
        ∃ locale, locales[k]? = some locale ∧ localeFeed? locale = some cached.feed := by
      have hplace := congrArg (·[k]?) (feeds_of_mapM h)
      simp only [List.getElem?_map, hk, Option.map_some] at hplace
      exact Option.map_eq_some_iff.mp hplace.symm
    obtain ⟨locale, hlocale, hfeed⟩ := hat i inner hi
    obtain ⟨locale', hlocale', hfeed'⟩ := hat j other hj
    obtain ⟨hsame, -⟩ := GoogleNewsRssProvider.buildUrl_inj hurl hurl'
    rw [hsame] at hfeed
    obtain rfl := localeFeed?_inj hfeed hfeed'
    have hlt := (List.getElem?_eq_some_iff.mp hlocale).1
    exact (List.getElem?_inj hlt hnodup).mp (hlocale.trans hlocale'.symm)

theorem assemble_ok {inners : List CachedFeed} (h : inners ≠ []) :
    ∃ instance', assemble inners = .ok (some instance') ∧ instance'.inners = inners := by
  cases inners with
  | nil => exact absurd rfl h
  | cons inner rest =>
      cases rest with
      | nil => exact ⟨.cached inner, rfl, rfl⟩
      | cons next rest =>
          let inners := inner :: next :: rest
          have hne : innersOf inners ≠ [] := by
            rw [innersOf, Ne, List.map_eq_nil_iff, List.range_eq_nil]
            exact Nat.succ_ne_zero _
          have hmake : CompositeNewsProvider.make (innersOf inners) 8 =
              .ok ⟨innersOf inners, (8 : Int).toNat, hne, by decide⟩ := by
            rw [CompositeNewsProvider.make, dif_pos hne, dif_pos (by decide)]
          refine ⟨.composite inners ⟨innersOf inners, (8 : Int).toNat, hne, by decide⟩, ?_, rfl⟩
          change (CompositeNewsProvider.make (innersOf inners) 8 >>= _) = _
          rw [hmake]
          rfl

/-- Without the provider `google_rss` there is none; with it there is one feed for each distinct
known locale, or the English one, unless the cache refuses its time to live. -/
theorem buildNewsProvider_feeds (t : CaseTable) (provider : Text) (cacheTtlSeconds : ℚ)
    (locales : Text) :
    if askedProvider t provider = text "google_rss" then
      if 0 < cacheTtlSeconds then
        ∃ instance', buildNewsProvider t provider cacheTtlSeconds locales = .ok (some instance') ∧
          Feeds cacheTtlSeconds
            (if localeTokens t locales = [] then [text "en"]
            else firstOccurrences id (localeTokens t locales)) instance'.inners
      else buildNewsProvider t provider cacheTtlSeconds locales = raise .valueError
    else buildNewsProvider t provider cacheTtlSeconds locales = .ok none := by
  rw [← parseLocaleList_eq]
  by_cases hasked : askedProvider t provider = text "google_rss"
  · have hbuild : buildNewsProvider t provider cacheTtlSeconds locales =
        (parseLocaleList t locales).mapM (cachedFeed cacheTtlSeconds) >>= assemble := by
      rw [buildNewsProvider, hasked]
      rfl
    rw [if_pos hasked, hbuild]
    by_cases hpos : 0 < cacheTtlSeconds
    · have hall : ∀ token ∈ parseLocaleList t locales,
          ∃ inner, cachedFeed cacheTtlSeconds token = .ok inner := fun token htoken =>
        cachedFeed_of_pos hpos (isLocale_of_mem htoken)
      obtain ⟨inners, hinners⟩ := mapM_ok hall
      have hne : inners ≠ [] := by
        rintro rfl
        exact parseLocaleList_ne_nil t locales
          (List.forall₂_nil_right_iff.mp (mapM_eq_ok_iff.mp hinners))
      obtain ⟨instance', hinstance, hsame⟩ := assemble_ok hne
      rw [if_pos hpos, hinners]
      refine ⟨instance', hinstance, ?_⟩
      rw [hsame]
      exact Feeds.of_mapM (nodup_parseLocaleList t locales) hinners
    · rw [if_neg hpos]
      cases hlocales : parseLocaleList t locales with
      | nil => exact absurd hlocales (parseLocaleList_ne_nil t locales)
      | cons locale rest =>
          have hmem : locale ∈ parseLocaleList t locales := hlocales ▸ List.mem_cons_self
          have hfirst := isLocale_of_mem hmem
          rw [List.mapM_cons, cachedFeed_of_not_pos hpos hfirst]
          rfl
  · rw [if_neg hasked]
    rw [buildNewsProvider]
    by_cases hnone : askedProvider t provider = text "none"
    · rw [if_pos hnone]
      rfl
    · rw [if_neg hnone, if_pos hasked]
      rfl

end NexusBackend
