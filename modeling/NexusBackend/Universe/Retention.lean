import NexusBackend.Universe.RealUniverse
import Mathlib.Data.List.ReduceOption

/-!
What `build_real_universe` keeps of the seed: no placeholder, every other ticker once, and
every subscription.

The rows of all passes come first, with what each row says about the old row of its ticker.
The merge takes the first row of each ticker, so what holds of every row that is offered
holds of the rows that stay.
-/
namespace NexusBackend

open Python KeyedTable

/-! ### Dictionaries built from lists -/

theorem existingRows_eq {securities : List Security}
    (h : (securities.map Security.ticker).Nodup) :
    existingRows securities = securities.map fun s => (s.ticker, s) := by
  induction securities using List.reverseRecOn with
  | nil => rfl
  | append_singleton securities s ih =>
      rw [List.map_append, List.nodup_append] at h
      have hnew : s.ticker ∉ (securities.map fun s => (s.ticker, s)).map Prod.fst := by
        rw [List.map_map]
        exact fun hmem => h.2.2 _ hmem _ (List.mem_singleton_self _) rfl
      rw [existingRows, List.foldl_append, List.map_append]
      change Json.setKey s.ticker s (existingRows securities) = _
      rw [ih h.1, Json.setKey_new s hnew]
      rfl

theorem existing_iff {securities : List Security} (h : (securities.map Security.ticker).Nodup)
    {ticker : Text} {old : Security} :
    Json.get? (existingRows securities) ticker = some old ↔
      old ∈ securities ∧ old.ticker = ticker := by
  rw [existingRows_eq h]
  constructor
  · intro hget
    obtain ⟨s, hs, heq⟩ := List.mem_map.mp (Json.mem_of_get? hget)
    cases heq
    exact ⟨hs, rfl⟩
  · rintro ⟨hmem, rfl⟩
    refine Json.get?_of_mem ?_ (List.mem_map.mpr ⟨old, hmem, rfl⟩)
    rw [List.map_map]
    exact h

theorem keys_foldl_setKey {α β : Type} {f : β → Text × α} {xs : List β}
    {pairs : List (Text × α)} {p : Text × α}
    (h : p ∈ xs.foldl (fun pairs x => Json.setKey (f x).1 (f x).2 pairs) pairs) :
    p ∈ pairs ∨ ∃ x ∈ xs, p = f x := by
  induction xs using List.reverseRecOn with
  | nil => exact .inl h
  | append_singleton xs x ih =>
      rw [List.foldl_append] at h
      rcases Json.mem_setKey h with rfl | h
      · exact .inr ⟨x, List.mem_append_right _ (List.mem_singleton_self _), rfl⟩
      · refine (ih h).imp_right ?_
        rintro ⟨x', hx', hp⟩
        exact ⟨x', List.mem_append_left _ hx', hp⟩

theorem keys_foldl_setDefault {α β : Type} {f : β → Text × α} {xs : List β}
    {pairs : List (Text × α)} {p : Text × α}
    (h : p ∈ xs.foldl (fun pairs x => setDefault pairs (f x).1 (f x).2) pairs) :
    p ∈ pairs ∨ ∃ x ∈ xs, p = f x := by
  induction xs using List.reverseRecOn with
  | nil => exact .inl h
  | append_singleton xs x ih =>
      rw [List.foldl_append] at h
      have hold (h : p ∈ xs.foldl (fun pairs x => setDefault pairs (f x).1 (f x).2) pairs) :
          p ∈ pairs ∨ ∃ x' ∈ xs ++ [x], p = f x' := by
        refine (ih h).imp_right ?_
        rintro ⟨x', hx', hp⟩
        exact ⟨x', List.mem_append_left _ hx', hp⟩
      rw [List.foldl_cons, List.foldl_nil, setDefault] at h
      split at h
      · exact hold h
      · rcases Json.mem_setKey h with rfl | h
        · exact .inr ⟨x, List.mem_append_right _ (List.mem_singleton_self _), rfl⟩
        · exact hold h

/-! ### Tickers of placeholders -/

/-- The ticker has the mark of a placeholder. -/
def IsPadTicker (ticker : Text) : Prop := startsWith ticker (text "PAD_") = true

instance (ticker : Text) : Decidable (IsPadTicker ticker) := inferInstanceAs (Decidable (_ = _))

theorem listing_not_pad : ∀ e ∈ ListingTables.kospiFull ++ ListingTables.kosdaqFull,
    ¬ IsPadTicker (text e.ticker) := by
  decide +kernel

theorem mem_krEntries {p : Text × KrListing} (h : p ∈ krEntries) :
    ∃ e ∈ ListingTables.kospiFull ++ ListingTables.kosdaqFull,
      ∃ market ∈ ["KRX", "KOSDAQ"].map text, p = (text e.ticker, e.toListing market) := by
  rw [krEntries] at h
  rcases keys_foldl_setDefault
    (f := fun e : ListingEntry => (text e.ticker, e.toListing (text "KOSDAQ"))) h with h | h
  · rcases keys_foldl_setKey
      (f := fun e : ListingEntry => (text e.ticker, e.toListing (text "KRX"))) h with h | h
    · cases h
    · obtain ⟨e, he, rfl⟩ := h
      exact ⟨e, List.mem_append_left _ he, text "KRX", List.mem_cons_self, rfl⟩
  · obtain ⟨e, he, rfl⟩ := h
    exact ⟨e, List.mem_append_right _ he, text "KOSDAQ",
      List.mem_cons_of_mem _ List.mem_cons_self, rfl⟩

theorem krEntries_not_pad {p : Text × KrListing} (h : p ∈ krEntries) : ¬ IsPadTicker p.1 := by
  obtain ⟨e, he, market, -, rfl⟩ := mem_krEntries h
  exact listing_not_pad e he

theorem usEntries_ticker {sp500 nq100 : List WikiRow} {p : Text × WikiRow}
    (h : p ∈ usEntries sp500 nq100) : ∃ row ∈ sp500 ++ nq100, p.1 = row.ticker := by
  rw [usEntries] at h
  rcases keys_foldl_setDefault (f := fun row : WikiRow => (row.ticker, row)) h with h | h
  · rcases keys_foldl_setKey (f := fun row : WikiRow => (row.ticker, row)) h with h | h
    · cases h
    · obtain ⟨row, hrow, rfl⟩ := h
      exact ⟨row, List.mem_append_left _ hrow, rfl⟩
  · obtain ⟨row, hrow, rfl⟩ := h
    exact ⟨row, List.mem_append_right _ hrow, rfl⟩

/-! ### Where a row comes from -/

/-- A row of the seed with the figures of an answer, and maybe another name and source. -/
structure FromSeed (info : Option YahooInfo) (old row : Security) : Prop where
  ticker : row.ticker = old.ticker
  nameKo : row.nameKo = old.nameKo
  aliases : row.aliases = old.aliases
  isSubscribed : row.isSubscribed = old.isSubscribed
  dataSource : row.dataSource = old.dataSource ∨ row.dataSource = text "yahoo_finance"
  marketCap : ∃ cap, floatCap (capOf info) = .ok cap ∧ row.marketCap = cap.or old.marketCap
  shares : ∃ shares, intShares (sharesOf info) = .ok shares ∧
    row.sharesOutstanding = shares.or old.sharesOutstanding

/-- A row of a listing with the figures of an answer. -/
structure FromListing (info : Option YahooInfo) (ticker : Text) (row : Security) : Prop where
  ticker : row.ticker = ticker
  isSubscribed : row.isSubscribed = false
  dataSource : row.dataSource = sourceOf info
  marketCap : floatCap (capOf info) = .ok row.marketCap
  shares : intShares (sharesOf info) = .ok row.sharesOutstanding

theorem withFigures_fromSeed {info : Option YahooInfo} {old row : Security}
    (h : old.withFigures (capOf info) (sharesOf info) = .ok row) : FromSeed info old row := by
  obtain ⟨cap, hcap, h⟩ := bind_eq_ok_iff.mp h
  obtain ⟨shares, hshares, h⟩ := bind_eq_ok_iff.mp h
  cases h
  exact ⟨rfl, rfl, rfl, rfl, .inl rfl, ⟨cap, hcap, rfl⟩, ⟨shares, hshares, rfl⟩⟩

section
variable {existing : List (Text × Security)} {yahoo : List (Text × YahooInfo)} {row : Security}

/-- The two ends of the Korean block that are rows. -/
theorem krRow_cases {entry : Text × KrListing}
    (h : krRow existing yahoo entry = .ok (some row)) :
    (∃ old, (Json.get? existing entry.1).filter Security.isSubscribed = some old ∧
        FromSeed (Json.get? yahoo (yahooSymbol entry.1 entry.2.market)) old row) ∨
      (Json.get? existing entry.1).filter Security.isSubscribed = none ∧
        FromListing (Json.get? yahoo (yahooSymbol entry.1 entry.2.market)) entry.1 row ∧
        row.aliases = ((Json.get? existing entry.1).map Security.aliases).getD [] ∧
        row.nameKo = some entry.2.nameKo ∧ row.market = entry.2.market := by
  obtain ⟨ticker, e⟩ := entry
  simp only [krRow] at h
  cases hold : (Json.get? existing ticker).filter Security.isSubscribed with
  | some old =>
      refine .inl ⟨old, rfl, ?_⟩
      rw [hold] at h
      obtain ⟨new, hfigures, h⟩ := bind_eq_ok_iff.mp h
      have hnew : FromSeed (Json.get? yahoo (yahooSymbol ticker e.market)) old new := by
        have hnamed := withFigures_fromSeed hfigures
        split at hnamed
        · exact ⟨hnamed.ticker, hnamed.nameKo, hnamed.aliases, hnamed.isSubscribed,
            hnamed.dataSource, hnamed.marketCap, hnamed.shares⟩
        · exact hnamed
      cases h
      refine ⟨hnew.ticker, hnew.nameKo, hnew.aliases, hnew.isSubscribed, ?_, hnew.marketCap,
        hnew.shares⟩
      dsimp only
      split
      · exact .inr rfl
      · exact hnew.dataSource
  | none =>
      refine .inr ⟨rfl, ?_⟩
      rw [hold] at h
      dsimp only at h
      split at h
      · cases h
      · obtain ⟨shares, hshares, h⟩ := bind_eq_ok_iff.mp h
        obtain ⟨cap, hcap, h⟩ := bind_eq_ok_iff.mp h
        cases h
        exact ⟨⟨rfl, rfl, rfl, hcap, hshares⟩, rfl, rfl, rfl⟩

/-- The two ends of the US block. -/
theorem usRow_cases {entry : Text × WikiRow} (h : usRow existing yahoo entry = .ok row) :
    (∃ old, (Json.get? existing entry.1).filter Security.isSubscribed = some old ∧
        FromSeed (Json.get? yahoo entry.1) old row) ∨
      (Json.get? existing entry.1).filter Security.isSubscribed = none ∧
        FromListing (Json.get? yahoo entry.1) entry.1 row ∧ row.aliases = [entry.1] ∧
        row.nameKo = none ∧ row.market = marketFromExchange (Json.get? yahoo entry.1) entry.1 := by
  obtain ⟨ticker, wiki⟩ := entry
  simp only [usRow] at h
  cases hold : (Json.get? existing ticker).filter Security.isSubscribed with
  | some old =>
      rw [hold] at h
      exact .inl ⟨old, rfl, withFigures_fromSeed h⟩
  | none =>
      rw [hold] at h
      obtain ⟨shares, hshares, h⟩ := bind_eq_ok_iff.mp h
      obtain ⟨cap, hcap, h⟩ := bind_eq_ok_iff.mp h
      cases h
      exact .inr ⟨rfl, ⟨rfl, rfl, rfl, hcap, hshares⟩, rfl, rfl, rfl⟩

end

/-! ### What a row says -/

/-- A row for `ticker` that may stand in the place of what the seed has there: it is no
placeholder, and it is subscribed where the seed's row is. -/
structure Replaces (securities : List Security) (ticker : Text) (row : Security) : Prop where
  keyed : row.ticker = ticker
  real : ¬ row.IsPadding
  subscribed : ∀ old ∈ securities, old.ticker = ticker → old.isSubscribed = true →
    row.isSubscribed = true

theorem source_not_padding (info : Option YahooInfo) :
    sourceOf info ≠ text "static_master_padding" := by
  rw [sourceOf]
  split
  · decide
  · decide

/-- A new row where the seed has no subscribed one. -/
theorem Replaces.of_new {securities : List Security}
    (hnodup : (securities.map Security.ticker).Nodup) {ticker : Text}
    (hold : (Json.get? (existingRows securities) ticker).filter Security.isSubscribed = none)
    {info : Option YahooInfo} {row : Security} (hticker : row.ticker = ticker)
    (hsource : row.dataSource = sourceOf info) : Replaces securities ticker row where
  keyed := hticker
  real := by
    rw [Security.IsPadding, hsource]
    exact source_not_padding info
  subscribed := by
    intro old hmem hkey hsub
    rw [(existing_iff hnodup).mpr ⟨hmem, hkey⟩, Option.filter_some, if_pos hsub] at hold
    cases hold

/-- A subscribed row of the seed with other figures, another name or another source. -/
theorem Replaces.of_old {securities : List Security}
    (hnodup : (securities.map Security.ticker).Nodup)
    (hpad : ∀ s ∈ securities, s.IsPadding → s.isSubscribed = false) {ticker : Text}
    {old : Security}
    (hold : (Json.get? (existingRows securities) ticker).filter Security.isSubscribed = some old)
    {row : Security} (hticker : row.ticker = old.ticker)
    (hsub : row.isSubscribed = old.isSubscribed)
    (hsource : row.dataSource = old.dataSource ∨ row.dataSource = text "yahoo_finance") :
    Replaces securities ticker row := by
  obtain ⟨hget, hsubscribed⟩ := Option.filter_eq_some_iff.mp hold
  obtain ⟨hmem, hkey⟩ := (existing_iff hnodup).mp hget
  refine ⟨hticker.trans hkey, ?_, fun _ _ _ _ => hsub.trans hsubscribed⟩
  rcases hsource with hsource | hsource
  · rw [Security.IsPadding, hsource]
    intro hpadding
    rw [hpad old hmem hpadding] at hsubscribed
    cases hsubscribed
  · rw [Security.IsPadding, hsource]
    decide

theorem krRow_replaces {securities : List Security}
    (hnodup : (securities.map Security.ticker).Nodup)
    (hpad : ∀ s ∈ securities, s.IsPadding → s.isSubscribed = false)
    {yahoo : List (Text × YahooInfo)} {entry : Text × KrListing} {row : Security}
    (h : krRow (existingRows securities) yahoo entry = .ok (some row)) :
    Replaces securities entry.1 row := by
  rcases krRow_cases h with ⟨old, hold, hseed⟩ | ⟨hold, hlisting, -⟩
  · exact .of_old hnodup hpad hold hseed.ticker hseed.isSubscribed hseed.dataSource
  · exact .of_new hnodup hold hlisting.ticker hlisting.dataSource

theorem usRow_replaces {securities : List Security}
    (hnodup : (securities.map Security.ticker).Nodup)
    (hpad : ∀ s ∈ securities, s.IsPadding → s.isSubscribed = false)
    {yahoo : List (Text × YahooInfo)} {entry : Text × WikiRow} {row : Security}
    (h : usRow (existingRows securities) yahoo entry = .ok row) :
    Replaces securities entry.1 row := by
  rcases usRow_cases h with ⟨old, hold, hseed⟩ | ⟨hold, hlisting, -⟩
  · exact .of_old hnodup hpad hold hseed.ticker hseed.isSubscribed hseed.dataSource
  · exact .of_new hnodup hold hlisting.ticker hlisting.dataSource

/-! ### All rows -/

/-- What the seed and the Wikipedia tables promise. -/
structure Sane (seed : Seed) (sp500 nq100 : List WikiRow) : Prop where
  unique : seed.tickers.Nodup
  padding : ∀ s ∈ seed.securities, s.IsPadding → IsPadTicker s.ticker ∧ s.isSubscribed = false
  wiki : ∀ row ∈ sp500 ++ nq100, ¬ IsPadTicker row.ticker

/-- What the rows keep of the seed. -/
structure Keeps (seed : Seed) (rows : List Security) : Prop where
  unique : (rows.map Security.ticker).Nodup
  real : ∀ row ∈ rows, ¬ row.IsPadding
  marked : ∀ row ∈ rows, IsPadTicker row.ticker →
    ∃ old ∈ seed.securities, old.ticker = row.ticker ∧ ¬ old.IsPadding
  present : ∀ old ∈ seed.securities, ¬ old.IsPadding → old.ticker ∈ rows.map Security.ticker
  subscribed : ∀ old ∈ seed.securities, old.isSubscribed = true →
    ∃ row ∈ rows, row.ticker = old.ticker ∧ row.isSubscribed = true

section
variable {seed : Seed} {sp500 nq100 : List WikiRow} {krYf usYf : YahooFinance}
  {rows : List Security}

/-- The three blocks: Korean rows, rows of the indexes, and what the seed has left. -/
theorem realRows_blocks {securities : List Security}
    (hrows : realRows securities sp500 nq100 krYf usYf = .ok rows) :
    ∃ kr us, krEntries.mapM (krRow (existingRows securities) (krYahoo krYf)) = .ok kr ∧
      (usEntries sp500 nq100).mapM (usRow (existingRows securities)
        (usYahoo usYf (usEntries sp500 nq100))) = .ok us ∧
      rows = Security.merge (Security.merge (Security.merge [] kr.reduceOption) us)
        (((existingRows securities).map Prod.snd).filter fun row => !decide row.IsPadding) := by
  simp only [realRows] at hrows
  obtain ⟨kr, hkr, hrows⟩ := bind_eq_ok_iff.mp hrows
  obtain ⟨us, hus, hrows⟩ := bind_eq_ok_iff.mp hrows
  cases hrows
  exact ⟨kr, us, hkr, hus, rfl⟩

theorem mem_existing_real {securities : List Security}
    (hnodup : (securities.map Security.ticker).Nodup) {row : Security} :
    row ∈ ((existingRows securities).map Prod.snd).filter (fun row => !decide row.IsPadding) ↔
      row ∈ securities ∧ ¬ row.IsPadding := by
  rw [existingRows_eq hnodup, List.map_map, List.mem_filter]
  simp

theorem Sane.not_subscribed (h : Sane seed sp500 nq100) {s : Security} (hs : s ∈ seed.securities)
    (hp : s.IsPadding) : s.isSubscribed = false := (h.padding s hs hp).2

/-- A row stands in the place of one of the seed, or is one of the seed. -/
theorem realRows_origin (h : Sane seed sp500 nq100)
    (hrows : realRows seed.securities sp500 nq100 krYf usYf = .ok rows) {row : Security}
    (hrow : row ∈ rows) :
    (∃ ticker, ¬ IsPadTicker ticker ∧ Replaces seed.securities ticker row) ∨
      row ∈ seed.securities ∧ ¬ row.IsPadding := by
  have hpad (s : Security) (hs : s ∈ seed.securities) (hp : s.IsPadding) :
      s.isSubscribed = false := h.not_subscribed hs hp
  obtain ⟨kr, us, hkr, hus, rfl⟩ := realRows_blocks hrows
  rcases mem_addAllNew hrow with hrow | hrow
  · rcases mem_addAllNew hrow with hrow | hrow
    · rcases mem_addAllNew hrow with hrow | hrow
      · cases hrow
      · obtain ⟨entry, hentry, hok⟩ := mem_of_mapM hkr (List.reduceOption_mem_iff.mp hrow)
        exact .inl ⟨entry.1, krEntries_not_pad hentry, krRow_replaces h.unique hpad hok⟩
    · obtain ⟨entry, hentry, hok⟩ := mem_of_mapM hus hrow
      obtain ⟨wiki, hwiki, hticker⟩ := usEntries_ticker hentry
      refine .inl ⟨entry.1, ?_, usRow_replaces h.unique hpad hok⟩
      rw [hticker]
      exact h.wiki wiki hwiki
  · exact .inr ((mem_existing_real h.unique).mp hrow)

theorem realRows_present (h : Sane seed sp500 nq100)
    (hrows : realRows seed.securities sp500 nq100 krYf usYf = .ok rows) {old : Security}
    (hold : old ∈ seed.securities) (hreal : ¬ old.IsPadding) :
    old.ticker ∈ rows.map Security.ticker := by
  obtain ⟨kr, us, -, -, rfl⟩ := realRows_blocks hrows
  have hkept := (mem_existing_real h.unique).mpr ⟨hold, hreal⟩
  exact mem_keys_addAllNew.mpr (.inr (List.mem_map_of_mem hkept))

theorem realRows_keeps (h : Sane seed sp500 nq100)
    (hrows : realRows seed.securities sp500 nq100 krYf usYf = .ok rows) : Keeps seed rows where
  unique := by
    obtain ⟨kr, us, -, -, rfl⟩ := realRows_blocks hrows
    have hempty : (([] : List Security).map Security.ticker).Nodup := List.nodup_nil
    exact nodup_addAllNew (nodup_addAllNew (nodup_addAllNew hempty _) _) _
  real := by
    intro row hrow
    rcases realRows_origin h hrows hrow with ⟨ticker, -, hreplaces⟩ | ⟨-, hreal⟩
    · exact hreplaces.real
    · exact hreal
  marked := by
    intro row hrow hmark
    rcases realRows_origin h hrows hrow with ⟨ticker, hnot, hreplaces⟩ | ⟨hmem, hreal⟩
    · rw [hreplaces.keyed] at hmark
      exact absurd hmark hnot
    · exact ⟨row, hmem, rfl, hreal⟩
  present _ hold hreal := realRows_present h hrows hold hreal
  subscribed := by
    intro old hold hsub
    have hreal : ¬ old.IsPadding := by
      intro hp
      rw [h.not_subscribed hold hp] at hsub
      cases hsub
    obtain ⟨row, hrow, hticker⟩ := List.mem_map.mp (realRows_present h hrows hold hreal)
    refine ⟨row, hrow, hticker, ?_⟩
    rcases realRows_origin h hrows hrow with ⟨ticker, -, hreplaces⟩ | ⟨hmem, -⟩
    · exact hreplaces.subscribed old hold (hticker.symm.trans hreplaces.keyed) hsub
    · rw [List.inj_on_of_nodup_map h.unique hmem hold hticker]
      exact hsub

end

/-! ### Estimates -/

theorem estimate_spec (caps : List (Text × Text × Python.Float)) (s : Security) :
    (s.estimate caps).ticker = s.ticker ∧ (s.estimate caps).isSubscribed = s.isSubscribed ∧
      ((s.estimate caps).IsPadding → s.IsPadding) := by
  rw [Security.estimate]
  split
  · exact ⟨rfl, rfl, id⟩
  · split
    · exact ⟨rfl, rfl, id⟩
    · refine ⟨rfl, rfl, fun hpadding => absurd hpadding ?_⟩
      change text "estimated" ≠ text "static_master_padding"
      decide

theorem Keeps.estimate {seed : Seed} {rows : List Security} (h : Keeps seed rows)
    (caps : List (Text × Text × Python.Float)) :
    Keeps seed (rows.map (Security.estimate caps)) := by
  have htickers : (rows.map (Security.estimate caps)).map Security.ticker =
      rows.map Security.ticker := by
    rw [List.map_map]
    exact List.map_congr_left fun s _ => (estimate_spec caps s).1
  refine ⟨?_, ?_, ?_, ?_, ?_⟩
  · rw [htickers]
    exact h.unique
  · intro row hrow hpadding
    obtain ⟨s, hs, rfl⟩ := List.mem_map.mp hrow
    exact h.real s hs ((estimate_spec caps s).2.2 hpadding)
  · intro row hrow hmark
    obtain ⟨s, hs, rfl⟩ := List.mem_map.mp hrow
    rw [(estimate_spec caps s).1] at hmark ⊢
    exact h.marked s hs hmark
  · intro old hold hreal
    rw [htickers]
    exact h.present old hold hreal
  · intro old hold hsub
    obtain ⟨s, hs, hticker, hs'⟩ := h.subscribed old hold hsub
    obtain ⟨hkey, hsame, -⟩ := estimate_spec caps s
    exact ⟨s.estimate caps, List.mem_map_of_mem hs, hkey.trans hticker, hsame.trans hs'⟩

/-! ### That there is an output -/

/-- `float(x)` and `int(x)` exist: `x` is neither infinite nor a NaN, nor too large. -/
def Number.Converts (x : Number) : Prop := (∃ f, x.toFloat = .ok f) ∧ ∃ n, x.toInt = .ok n

/-- The figures of the answers convert. -/
structure YahooInfo.Converts (info : YahooInfo) : Prop where
  cap : ∀ x, info.marketCap = some x → Number.Converts x
  shares : ∀ x, info.sharesOutstanding = some x → Number.Converts x
  implied : ∀ x, info.impliedSharesOutstanding = some x → Number.Converts x

def AnswersConvert (yf : YahooFinance) : Prop := ∀ call symbol info, yf call symbol = .ok info →
  info.Converts

theorem mem_batchFetch {yf : YahooFinance} {symbols : List Text} {p : Text × YahooInfo}
    (h : p ∈ batchFetch yf symbols) : ∃ call symbol, yf call symbol = .ok p.2 := by
  rw [batchFetch] at h
  generalize symbols.zipIdx = calls at h
  induction calls using List.reverseRecOn with
  | nil => cases h
  | append_singleton calls last ih =>
      rw [List.foldl_append, List.foldl_cons, List.foldl_nil] at h
      obtain ⟨symbol, call⟩ := last
      dsimp only at h
      split at h
      · rename_i info hok
        split at h
        · rcases Json.mem_setKey h with rfl | h
          · exact ⟨call, symbol, hok⟩
          · exact ih h
        · exact ih h
      · exact ih h

theorem krYahoo_converts {yf : YahooFinance} (h : AnswersConvert yf) {symbol : Text}
    {info : YahooInfo} (hget : Json.get? (krYahoo yf) symbol = some info) : info.Converts := by
  obtain ⟨call, symbol', hok⟩ := mem_batchFetch (Json.mem_of_get? hget)
  exact h call symbol' info hok

theorem usYahoo_converts {yf : YahooFinance} (h : AnswersConvert yf)
    {entries : List (Text × WikiRow)} {ticker : Text} {info : YahooInfo}
    (hget : Json.get? (usYahoo yf entries) ticker = some info) : info.Converts := by
  obtain ⟨p, -, hp⟩ := List.mem_filterMap.mp (Json.mem_of_get? hget)
  obtain ⟨info', hraw, heq⟩ := Option.map_eq_some_iff.mp hp
  cases heq
  obtain ⟨call, symbol, hok⟩ := mem_batchFetch (Json.mem_of_get? hraw)
  exact h call symbol info hok

theorem present_eq_some {x : Option Number} {y : Number} (h : present x = some y) : x = some y :=
  (Option.filter_eq_some_iff.mp h).1

theorem floatCap_ok {info : Option YahooInfo} (h : ∀ i, info = some i → i.Converts) :
    ∃ cap, floatCap (capOf info) = .ok cap ∧ ∀ x, cap = some x → ∃ f, x.toFloat = .ok f := by
  cases hcap : capOf info with
  | none => exact ⟨none, rfl, nofun⟩
  | some x =>
      obtain ⟨i, hi, hx⟩ := Option.bind_eq_some_iff.mp (present_eq_some hcap)
      obtain ⟨f, hf⟩ := ((h i hi).cap x hx).1
      refine ⟨some (.float f), ?_, ?_⟩
      · rw [floatCap, Option.mapM_some, hf]
        rfl
      · intro y hy
        cases hy
        exact ⟨f, rfl⟩

theorem intShares_ok {info : Option YahooInfo} (h : ∀ i, info = some i → i.Converts) :
    ∃ shares, intShares (sharesOf info) = .ok shares := by
  cases hshares : sharesOf info with
  | none => exact ⟨none, rfl⟩
  | some x =>
      have hconverts : Number.Converts x := by
        rcases Option.or_eq_some_iff.mp hshares with hx | ⟨-, hx⟩
        · obtain ⟨i, hi, hx⟩ := Option.bind_eq_some_iff.mp (present_eq_some hx)
          exact (h i hi).shares x hx
        · obtain ⟨i, hi, hx⟩ := Option.bind_eq_some_iff.mp (present_eq_some hx)
          exact (h i hi).implied x hx
      obtain ⟨n, hn⟩ := hconverts.2
      refine ⟨some (.int n), ?_⟩
      rw [intShares, Option.mapM_some, hn]
      rfl

/-- The market cap of the row can be read as a float. -/
def CapReads (s : Security) : Prop := ∀ x, s.marketCap = some x → ∃ f, x.toFloat = .ok f

theorem withFigures_total {row : Security} (hrow : CapReads row) {info : Option YahooInfo}
    (h : ∀ i, info = some i → i.Converts) :
    ∃ row', row.withFigures (capOf info) (sharesOf info) = .ok row' ∧ CapReads row' := by
  obtain ⟨cap, hcap, hread⟩ := floatCap_ok h
  obtain ⟨shares, hshares⟩ := intShares_ok h
  refine ⟨{ row with
    marketCap := cap.or row.marketCap
    sharesOutstanding := shares.or row.sharesOutstanding }, ?_, ?_⟩
  · rw [Security.withFigures, hcap, hshares]
    rfl
  · intro x hx
    rcases Option.or_eq_some_iff.mp hx with hx | ⟨-, hx⟩
    · exact hread x hx
    · exact hrow x hx

theorem refreshed_total {named : Security} (hnamed : CapReads named) {info : Option YahooInfo}
    (h : ∀ i, info = some i → i.Converts) (source : Security → Text) :
    ∃ row : Option Security, (do
        let row ← named.withFigures (capOf info) (sharesOf info)
        return some { row with dataSource := source row }) = .ok row ∧
      ∀ s, row = some s → CapReads s := by
  obtain ⟨row, hrow, hread⟩ := withFigures_total hnamed h
  refine ⟨some { row with dataSource := source row }, ?_, ?_⟩
  · rw [hrow]
    rfl
  · intro s hs
    cases hs
    exact hread

theorem krRow_total {securities : List Security}
    (hnodup : (securities.map Security.ticker).Nodup) (hcaps : ∀ s ∈ securities, CapReads s)
    {yf : YahooFinance} (hyf : AnswersConvert yf) (entry : Text × KrListing) :
    ∃ row, krRow (existingRows securities) (krYahoo yf) entry = .ok row ∧
      ∀ s, row = some s → CapReads s := by
  obtain ⟨ticker, e⟩ := entry
  have hinfo (i : YahooInfo)
      (hi : Json.get? (krYahoo yf) (yahooSymbol ticker e.market) = some i) : i.Converts :=
    krYahoo_converts hyf hi
  simp only [krRow]
  generalize Json.get? (krYahoo yf) (yahooSymbol ticker e.market) = info at hinfo ⊢
  cases hold : (Json.get? (existingRows securities) ticker).filter Security.isSubscribed with
  | some old =>
      have hmem := ((existing_iff hnodup).mp (Option.filter_eq_some_iff.mp hold).1).1
      have hread := hcaps old hmem
      have hnamed : CapReads { old with nameEn := some (englishName info e.nameEn) } := hread
      dsimp only
      split
      · exact refreshed_total hnamed hinfo _
      · exact refreshed_total hread hinfo _
  | none =>
      dsimp only
      split
      · exact ⟨none, rfl, nofun⟩
      · obtain ⟨cap, hcap, hread⟩ := floatCap_ok hinfo
        obtain ⟨shares, hshares⟩ := intShares_ok hinfo
        rw [hcap, hshares]
        refine ⟨_, rfl, ?_⟩
        intro s hs
        cases hs
        exact hread

theorem usRow_total {securities : List Security}
    (hnodup : (securities.map Security.ticker).Nodup) (hcaps : ∀ s ∈ securities, CapReads s)
    {yf : YahooFinance} (hyf : AnswersConvert yf) {entries : List (Text × WikiRow)}
    (entry : Text × WikiRow) :
    ∃ row, usRow (existingRows securities) (usYahoo yf entries) entry = .ok row ∧
      CapReads row := by
  obtain ⟨ticker, wiki⟩ := entry
  have hinfo (i : YahooInfo) (hi : Json.get? (usYahoo yf entries) ticker = some i) :
      i.Converts := usYahoo_converts hyf hi
  simp only [usRow]
  generalize Json.get? (usYahoo yf entries) ticker = info at hinfo ⊢
  cases hold : (Json.get? (existingRows securities) ticker).filter Security.isSubscribed with
  | some old =>
      have hmem := ((existing_iff hnodup).mp (Option.filter_eq_some_iff.mp hold).1).1
      exact withFigures_total (hcaps old hmem) hinfo
  | none =>
      obtain ⟨cap, hcap, hread⟩ := floatCap_ok hinfo
      obtain ⟨shares, hshares⟩ := intShares_ok hinfo
      dsimp only
      rw [hcap, hshares]
      exact ⟨_, rfl, hread⟩

theorem realRows_total {seed : Seed} (hnodup : seed.tickers.Nodup)
    (hcaps : ∀ s ∈ seed.securities, CapReads s) (sp500 nq100 : List WikiRow)
    {krYf usYf : YahooFinance} (hkr : AnswersConvert krYf) (hus : AnswersConvert usYf) :
    ∃ rows, realRows seed.securities sp500 nq100 krYf usYf = .ok rows ∧
      ∀ row ∈ rows, CapReads row := by
  have hnodup' : (seed.securities.map Security.ticker).Nodup := hnodup
  have hkrRow (entry : Text × KrListing) :=
    krRow_total hnodup' hcaps hkr entry
  have husRow (entry : Text × WikiRow) : ∃ row, usRow (existingRows seed.securities)
      (usYahoo usYf (usEntries sp500 nq100)) entry = .ok row ∧ CapReads row :=
    usRow_total hnodup' hcaps hus entry
  obtain ⟨kr, hkrRows⟩ : ∃ kr, krEntries.mapM (krRow (existingRows seed.securities)
      (krYahoo krYf)) = .ok kr := mapM_ok fun entry _ => (hkrRow entry).imp fun _ h => h.1
  obtain ⟨us, husRows⟩ : ∃ us, (usEntries sp500 nq100).mapM (usRow (existingRows seed.securities)
      (usYahoo usYf (usEntries sp500 nq100))) = .ok us :=
    mapM_ok fun entry _ => (husRow entry).imp fun _ h => h.1
  refine ⟨Security.merge (Security.merge (Security.merge [] kr.reduceOption) us)
    (((existingRows seed.securities).map Prod.snd).filter fun row => !decide row.IsPadding),
    ?_, ?_⟩
  · rw [realRows, hkrRows]
    dsimp only [ok_bind]
    rw [husRows]
    rfl
  · intro row hrow
    rcases mem_addAllNew hrow with hrow | hrow
    · rcases mem_addAllNew hrow with hrow | hrow
      · rcases mem_addAllNew hrow with hrow | hrow
        · cases hrow
        · obtain ⟨entry, -, hok⟩ := mem_of_mapM hkrRows (List.reduceOption_mem_iff.mp hrow)
          obtain ⟨row', hok', hread⟩ := hkrRow entry
          cases hok.symm.trans hok'
          exact hread row rfl
      · obtain ⟨entry, -, hok⟩ := mem_of_mapM husRows hrow
        obtain ⟨row', hok', hread⟩ := husRow entry
        cases hok.symm.trans hok'
        exact hread
    · rw [existingRows_eq hnodup', List.map_map] at hrow
      obtain ⟨s, hs, rfl⟩ := List.mem_map.mp (List.mem_of_mem_filter hrow)
      exact hcaps s hs

theorem yahooCap_total {s : Security} (h : CapReads s) : ∃ cap, yahooCap s = .ok cap := by
  rw [yahooCap]
  split
  · cases hcap : present s.marketCap with
    | none => exact ⟨none, rfl⟩
    | some cap =>
        obtain ⟨f, hf⟩ := h cap (present_eq_some hcap)
        refine ⟨some (s.sector, s.market, f), ?_⟩
        rw [Option.mapM_some, hf]
        rfl
  · exact ⟨none, rfl⟩

theorem applySectorMedianEstimates_total {rows : List Security}
    (h : ∀ row ∈ rows, CapReads row) :
    ∃ out, applySectorMedianEstimates rows = .ok out := by
  obtain ⟨caps, hcaps⟩ := mapM_ok fun s hs => yahooCap_total (h s hs)
  refine ⟨rows.map (Security.estimate caps.reduceOption), ?_⟩
  rw [applySectorMedianEstimates, yahooCaps, hcaps]
  rfl

/-- Where every figure converts, something is built. -/
theorem buildRealUniverse_total {file : Option Seed} (h : (Seed.load file).tickers.Nodup)
    (hcaps : ∀ s ∈ (Seed.load file).securities, CapReads s) (sp500 nq100 : List WikiRow)
    {krYf usYf : YahooFinance} (hkr : AnswersConvert krYf) (hus : AnswersConvert usYf) :
    ∃ out, buildRealUniverse file sp500 nq100 krYf usYf = .ok out := by
  obtain ⟨rows, hrows, hread⟩ := realRows_total h hcaps sp500 nq100 hkr hus
  obtain ⟨out, hout⟩ := applySectorMedianEstimates_total hread
  refine ⟨⟨3, realUniverseNote, out, (Seed.load file).relations⟩, ?_⟩
  rw [buildRealUniverse, hrows]
  dsimp only [ok_bind]
  rw [hout]
  rfl

/-- What is built keeps the seed: no placeholder, unique tickers, every other ticker, every
subscription and the relations. Where every figure converts, something is built. -/
theorem buildRealUniverse_keeps {file : Option Seed} {sp500 nq100 : List WikiRow}
    {krYf usYf : YahooFinance} (h : Sane (Seed.load file) sp500 nq100) :
    (∀ out, buildRealUniverse file sp500 nq100 krYf usYf = .ok out →
      Keeps (Seed.load file) out.securities ∧ out.relations = (Seed.load file).relations) ∧
    ((∀ s ∈ (Seed.load file).securities, CapReads s) → AnswersConvert krYf →
      AnswersConvert usYf → ∃ out, buildRealUniverse file sp500 nq100 krYf usYf = .ok out) := by
  refine ⟨fun out hout => ?_, fun hcaps hkr hus => ?_⟩
  · simp only [buildRealUniverse] at hout
    obtain ⟨rows, hrows, hout⟩ := bind_eq_ok_iff.mp hout
    obtain ⟨estimated, hestimated, hout⟩ := bind_eq_ok_iff.mp hout
    cases hout
    obtain ⟨caps, -, hmap⟩ := bind_eq_ok_iff.mp hestimated
    cases hmap
    exact ⟨(realRows_keeps h hrows).estimate caps, rfl⟩
  · exact buildRealUniverse_total h.unique hcaps sp500 nq100 hkr hus

/-- A subscribed row and a placeholder, one answer for every symbol. -/
theorem buildRealUniverse_keeps_sample :
    let kept : Security := {
      ticker := text "005930", nameKo := none, nameEn := none, aliases := []
      market := text "KRX", sector := [], sectorLabel := [], currency := text "KRW"
      sharesOutstanding := none, marketCap := some (.float (.finite 5)), isSubscribed := true
      dataSource := text "static_master" }
    let pad : Security := { kept with
      ticker := text "PAD_KRX_001", isSubscribed := false
      dataSource := text "static_master_padding" }
    let seed : Seed := ⟨3, [], [kept, pad], []⟩
    let yf : YahooFinance := fun _ _ => .ok { marketCap := some (.float (.finite 7)) }
    ∃ out, buildRealUniverse (some seed) [⟨text "BRK.B", [], []⟩] [] yf yf = .ok out ∧
      Keeps seed out.securities := by
  intro kept pad seed yf
  have hsane : Sane (Seed.load (some seed)) [⟨text "BRK.B", [], []⟩] [] := by
    refine ⟨by decide, ?_, by decide⟩
    intro s hs hpadding
    rcases List.mem_pair.mp hs with rfl | rfl
    · exact absurd hpadding (by decide)
    · exact ⟨by decide, rfl⟩
  have hcaps (s : Security) (hs : s ∈ (Seed.load (some seed)).securities) :
      CapReads s := by
    intro x hx
    rcases List.mem_pair.mp hs with rfl | rfl
    · cases hx
      exact ⟨_, rfl⟩
    · cases hx
      exact ⟨_, rfl⟩
  have hyf : AnswersConvert yf := by
    intro call symbol info hok
    cases hok
    refine ⟨?_, nofun, nofun⟩
    intro x hx
    cases hx
    exact ⟨⟨.finite 7, rfl⟩, 7, by decide +kernel⟩
  obtain ⟨out, hout⟩ := (buildRealUniverse_keeps hsane).2 hcaps hyf hyf
  exact ⟨out, hout, ((buildRealUniverse_keeps hsane).1 out hout).1⟩

end NexusBackend
