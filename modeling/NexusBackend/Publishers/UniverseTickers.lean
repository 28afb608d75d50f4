import NexusBackend.Library.Ranking
import NexusBackend.Publishers.UsQuotes
import NexusBackend.Universe.Retention

/-!
`UniversePublisher`: the tickers it loads from `security_master`, the `UsPublisher` it starts
with them, and the Yahoo symbols it polls them under against those of `fetch_real_universe`.

The rows of the table are those of the seed. The query answers with rows or raises; the order
of its tickers is that of a collation of the database.
-/
namespace NexusBackend

open Python

/-- `security_master`, with the ticker as its primary key. -/
abbrev SecurityMaster := KeyedTable Security.ticker

/-- The parameters of the constructor of `UniversePublisher` that reach its polling. -/
structure UniversePolling where
  exclude : List Text
  batchSize : Nat
  dataSourceUrl : Text
  observed : Bool
  batch_pos : 1 ≤ batchSize

namespace UniversePolling

/-- `_MARKET_SUFFIX`. -/
def marketSuffix : List (Text × Text) :=
  [(text "KRX", text ".KS"), (text "KOSDAQ", text ".KQ"), (text "NASDAQ", []), (text "NYSE", [])]

/-- The markets that the query selects. -/
def polledMarkets : List Text := ["KRX", "KOSDAQ", "NASDAQ", "NYSE"].map text

/-- The condition of the query. -/
def Selected (row : Security) : Prop :=
  row.isSubscribed = false ∧ ¬ row.IsPadding ∧ row.market ∈ polledMarkets

instance (row : Security) : Decidable (Selected row) := inferInstanceAs (Decidable (_ ∧ _ ∧ _))

/-- The rows of the query. -/
def selectedRows {κ : Type} [LinearOrder κ] (collate : Text → κ) (table : SecurityMaster) :
    List Security :=
  Ranking.ascending (fun row => collate row.ticker) (table.rows.filter fun row => Selected row)

/-- What `_load_tickers` returns, with the number of rows it left out. -/
structure Loaded where
  symbols : List Text := []
  yahooMap : List (Text × Text) := []
  excluded : Nat := 0

/-- The Yahoo symbol of a row. -/
def mappedSymbol (row : Security) : Text :=
  row.ticker ++ (Json.get? marketSuffix row.market).getD []

/-- One round of the loop over the rows. -/
def loadRow (exclude : List Text) (loaded : Loaded) (row : Security) : Loaded :=
  if row.ticker ∈ exclude then { loaded with excluded := loaded.excluded + 1 }
  else
    { loaded with
      symbols := loaded.symbols ++ [row.ticker]
      yahooMap := Json.setKey row.ticker (mappedSymbol row) loaded.yahooMap }

def loadRows (exclude : List Text) (rows : List Security) : Loaded :=
  rows.foldl (loadRow exclude) {}

/-- `_load_tickers`. -/
def loadTickers (p : UniversePolling) (fetched : Except Exn (List Security)) :
    Except Exn Loaded :=
  tryExcept (loadRows p.exclude <$> fetched) Worker.databaseErrors fun _ => .ok {}

/-- `start`: the publisher inside, where there is something to poll. -/
def start (p : UniversePolling) (fetched : Except Exn (List Security)) :
    Except Exn (Option UsPolling.Config) := do
  let loaded ← p.loadTickers fetched
  return if h : loaded.symbols = [] then none
    else some {
      symbols := loaded.symbols
      dataSourceUrl := p.dataSourceUrl
      batchSize := p.batchSize
      yahooSuffix := []
      yahooMap := loaded.yahooMap
      observed := p.observed
      symbols_ne := h
      batch_pos := p.batch_pos }

end UniversePolling

/-- The Yahoo symbol that `_fetch_quote` asks for. -/
def UsPolling.Config.yahooSymbol (cfg : UsPolling.Config) (symbol : Text) : Text :=
  (Json.get? cfg.yahooMap symbol).getD (symbol ++ cfg.yahooSuffix)

theorem UsPolling.Config.url_eq (cfg : UsPolling.Config) (symbol : Text) :
    cfg.url symbol = cfg.dataSourceUrl ++ text "/" ++ cfg.yahooSymbol symbol ++
      text "?interval=1m&range=1d" := rfl

namespace UniversePolling

/-! ### What is loaded -/

theorem selectedRows_perm {κ : Type} [LinearOrder κ] (collate : Text → κ)
    (table : SecurityMaster) :
    (selectedRows collate table).Perm (table.rows.filter fun row => Selected row) :=
  Ranking.ascending_perm _ _

theorem mem_selectedRows {κ : Type} [LinearOrder κ] {collate : Text → κ}
    {table : SecurityMaster} {row : Security} :
    row ∈ selectedRows collate table ↔ row ∈ table.rows ∧ Selected row := by
  rw [(selectedRows_perm collate table).mem_iff, List.mem_filter, decide_eq_true_iff]

theorem selectedRows_nodup {κ : Type} [LinearOrder κ] (collate : Text → κ)
    (table : SecurityMaster) : ((selectedRows collate table).map Security.ticker).Nodup := by
  rw [((selectedRows_perm collate table).map Security.ticker).nodup_iff]
  exact (List.filter_sublist.map Security.ticker).nodup table.keys_nodup

/-- Of rows with distinct tickers those not excluded are loaded, each with its symbol. -/
theorem loadRows_spec {exclude : List Text} {rows : List Security}
    (h : (rows.map Security.ticker).Nodup) :
    (loadRows exclude rows).symbols =
        (rows.filter fun row => row.ticker ∉ exclude).map Security.ticker ∧
      (loadRows exclude rows).yahooMap =
        (rows.filter fun row => row.ticker ∉ exclude).map fun row =>
          (row.ticker, mappedSymbol row) := by
  induction rows using List.reverseRecOn with
  | nil => exact ⟨rfl, rfl⟩
  | append_singleton rows row ih =>
      rw [List.map_append, List.nodup_append] at h
      obtain ⟨hsymbols, hmap⟩ := ih h.1
      rw [loadRows, List.foldl_append, List.filter_append, List.filter_singleton]
      change (loadRow exclude (loadRows exclude rows) row).symbols = _ ∧
        (loadRow exclude (loadRows exclude rows) row).yahooMap = _
      rw [loadRow]
      by_cases hexcluded : row.ticker ∈ exclude
      · rw [if_pos hexcluded, decide_eq_false (not_not_intro hexcluded)]
        rw [cond_false, List.append_nil]
        exact ⟨hsymbols, hmap⟩
      · have hnew : row.ticker ∉ (loadRows exclude rows).yahooMap.map Prod.fst := by
          rw [hmap, List.map_map]
          intro hmem
          obtain ⟨old, hold, heq⟩ := List.mem_map.mp hmem
          exact h.2.2 _ (List.mem_map_of_mem (List.mem_of_mem_filter hold)) _
            (List.mem_singleton_self _) heq
        rw [if_neg hexcluded, decide_eq_true hexcluded]
        dsimp only
        rw [Json.setKey_new _ hnew, hsymbols, hmap, List.map_append, List.map_append]
        exact ⟨rfl, rfl⟩

theorem start_eq_some {p : UniversePolling} {rows : List Security} {cfg : UsPolling.Config}
    (h : p.start (.ok rows) = .ok (some cfg)) :
    cfg.symbols = (loadRows p.exclude rows).symbols ∧
      cfg.yahooMap = (loadRows p.exclude rows).yahooMap := by
  change Except.ok _ = Except.ok _ at h
  split at h
  · cases h
  · cases h
    exact ⟨rfl, rfl⟩

/-- A selected row that is not excluded is polled, under its mapped symbol. -/
theorem start_polls {κ : Type} [LinearOrder κ] {collate : Text → κ} {table : SecurityMaster}
    {p : UniversePolling} {cfg : UsPolling.Config}
    (hstart : p.start (.ok (selectedRows collate table)) = .ok (some cfg)) {row : Security}
    (hrow : row ∈ table.rows) (hselected : Selected row) (hexclude : row.ticker ∉ p.exclude) :
    row.ticker ∈ cfg.symbols ∧ cfg.yahooSymbol row.ticker = mappedSymbol row := by
  obtain ⟨hsymbols, hmap⟩ := start_eq_some hstart
  have hnodup := selectedRows_nodup collate table
  obtain ⟨hloaded, hpairs⟩ := @loadRows_spec p.exclude _ hnodup
  have hmem : row ∈ (selectedRows collate table).filter fun row => row.ticker ∉ p.exclude :=
    List.mem_filter.mpr ⟨mem_selectedRows.mpr ⟨hrow, hselected⟩, decide_eq_true hexclude⟩
  refine ⟨?_, ?_⟩
  · rw [hsymbols, hloaded]
    exact List.mem_map_of_mem hmem
  · have hkeys : (cfg.yahooMap.map Prod.fst).Nodup := by
      rw [hmap, hpairs, List.map_map]
      exact (List.filter_sublist.map Security.ticker).nodup hnodup
    have hpair : (row.ticker, mappedSymbol row) ∈ cfg.yahooMap := by
      rw [hmap, hpairs]
      exact List.mem_map.mpr ⟨row, hmem, rfl⟩
    rw [UsPolling.Config.yahooSymbol, Json.get?_of_mem hkeys hpair]
    rfl

/-! ### The symbols of the enrichment script -/

def koreanMarkets : List Text := ["KRX", "KOSDAQ"].map text

/-- The symbol under which the script fetches what it writes into a row: that of `_yahoo_symbol`
on the Korean markets, that of `_yahoo_us_symbol` on the others. -/
def fetchSymbol (ticker market : Text) : Text :=
  if market ∈ koreanMarkets then yahooSymbol ticker market else yahooUsSymbol ticker

theorem krEntries_market {p : Text × KrListing} (h : p ∈ krEntries) :
    p.2.market ∈ koreanMarkets := by
  obtain ⟨e, -, market, hmarket, rfl⟩ := mem_krEntries h
  exact hmarket

theorem marketFromExchange_not_korean (info : Option YahooInfo) (ticker : Text) :
    marketFromExchange info ticker ∉ koreanMarkets := by
  rw [marketFromExchange]
  split
  · decide
  · split
    · decide
    · split
      · decide
      · decide

/-- The script writes a row of this ticker and market, with the data of a symbol, that it does
not leave to the subscription. -/
inductive Fetches (ticker market : Text) : Text → Prop
  | korean {existing : List (Text × Security)} {yahoo : List (Text × YahooInfo)}
      {entry : Text × KrListing} {row : Security} (listed : entry ∈ krEntries)
      (written : krRow existing yahoo entry = .ok (some row)) (open' : row.isSubscribed = false)
      (keyed : row.ticker = ticker) (placed : row.market = market) :
      Fetches ticker market (yahooSymbol entry.1 entry.2.market)
  | american {existing : List (Text × Security)} {yahoo : List (Text × YahooInfo)}
      {entry : Text × WikiRow} {row : Security} (written : usRow existing yahoo entry = .ok row)
      (open' : row.isSubscribed = false) (keyed : row.ticker = ticker)
      (placed : row.market = market) : Fetches ticker market (yahooUsSymbol entry.1)

theorem krRow_fetchSymbol {existing : List (Text × Security)} {yahoo : List (Text × YahooInfo)}
    {entry : Text × KrListing} (hentry : entry ∈ krEntries) {row : Security}
    (h : krRow existing yahoo entry = .ok (some row)) (hopen : row.isSubscribed = false) :
    yahooSymbol entry.1 entry.2.market = fetchSymbol row.ticker row.market := by
  rcases krRow_cases h with ⟨old, hold, hseed⟩ | ⟨-, hlisting, -, -, hmarket⟩
  · rw [hseed.isSubscribed, (Option.filter_eq_some_iff.mp hold).2] at hopen
    cases hopen
  · rw [fetchSymbol, hmarket, hlisting.ticker, if_pos (krEntries_market hentry)]

theorem usRow_fetchSymbol {existing : List (Text × Security)} {yahoo : List (Text × YahooInfo)}
    {entry : Text × WikiRow} {row : Security} (h : usRow existing yahoo entry = .ok row)
    (hopen : row.isSubscribed = false) :
    yahooUsSymbol entry.1 = fetchSymbol row.ticker row.market := by
  rcases usRow_cases h with ⟨old, hold, hseed⟩ | ⟨-, hlisting, -, -, hmarket⟩
  · rw [hseed.isSubscribed, (Option.filter_eq_some_iff.mp hold).2] at hopen
    cases hopen
  · rw [fetchSymbol, hmarket, hlisting.ticker, if_neg (marketFromExchange_not_korean _ _)]

theorem Fetches.eq_fetchSymbol {ticker market symbol : Text} (h : Fetches ticker market symbol) :
    symbol = fetchSymbol ticker market := by
  cases h with
  | korean listed written open' keyed placed =>
      rw [← keyed, ← placed]
      exact krRow_fetchSymbol listed written open'
  | american written open' keyed placed =>
      rw [← keyed, ← placed]
      exact usRow_fetchSymbol written open'

theorem yahooUsSymbol_eq_iff (ticker : Text) : ticker = yahooUsSymbol ticker ↔ 46 ∉ ticker := by
  induction ticker with
  | nil => exact iff_of_true rfl List.not_mem_nil
  | cons c ticker ih =>
      rw [yahooUsSymbol, List.map_cons, List.cons.injEq, List.mem_cons, not_or]
      refine and_congr ?_ ih
      split
      · rename_i hc
        rw [hc]
        exact iff_of_false nofun (not_not_intro rfl)
      · rename_i hc
        exact iff_of_true rfl (Ne.symm hc)

theorem mappedSymbol_eq_iff {row : Security} (h : row.market ∈ polledMarkets) :
    mappedSymbol row = fetchSymbol row.ticker row.market ↔
      row.market ∈ koreanMarkets ∨ 46 ∉ row.ticker := by
  rw [mappedSymbol]
  generalize row.market = market at h
  simp only [polledMarkets, List.map_cons, List.map_nil, List.mem_cons, List.not_mem_nil,
    or_false] at h
  rcases h with rfl | rfl | rfl | rfl
  · exact iff_of_true rfl (.inl (by decide))
  · exact iff_of_true rfl (.inl (by decide))
  · rw [or_iff_right (by decide), ← yahooUsSymbol_eq_iff]
    change row.ticker ++ [] = _ ↔ _
    rw [List.append_nil]
    rfl
  · rw [or_iff_right (by decide), ← yahooUsSymbol_eq_iff]
    change row.ticker ++ [] = _ ↔ _
    rw [List.append_nil]
    rfl

/-- A row is polled under the symbol of its data exactly when it is Korean or its ticker has no
full stop. -/
theorem polls_as_fetched_iff {κ : Type} [LinearOrder κ] {collate : Text → κ}
    {table : SecurityMaster} {p : UniversePolling} {cfg : UsPolling.Config}
    (hstart : p.start (.ok (selectedRows collate table)) = .ok (some cfg)) {row : Security}
    (hrow : row ∈ table.rows) (hselected : Selected row) (hexclude : row.ticker ∉ p.exclude) :
    row.ticker ∈ cfg.symbols ∧
      (∀ symbol, Fetches row.ticker row.market symbol →
        symbol = fetchSymbol row.ticker row.market) ∧
      (cfg.yahooSymbol row.ticker = fetchSymbol row.ticker row.market ↔
        row.market ∈ koreanMarkets ∨ 46 ∉ row.ticker) := by
  obtain ⟨hsymbols, hsymbol⟩ := start_polls hstart hrow hselected hexclude
  refine ⟨hsymbols, fun symbol h => h.eq_fetchSymbol, ?_⟩
  rw [hsymbol]
  exact mappedSymbol_eq_iff hselected.2.2

/-! ### A class share -/

/-- What the script writes for a listing without an answer. -/
def classShare : Security where
  ticker := text "BRK.B"
  nameKo := none
  nameEn := some (text "Berkshire Hathaway")
  aliases := [text "BRK.B"]
  market := text "NYSE"
  sector := text "FIN_US"
  sectorLabel := text "US Financials"
  currency := text "USD"
  sharesOutstanding := none
  marketCap := none
  isSubscribed := false
  dataSource := text "static_master"

def classShareTable : SecurityMaster := KeyedTable.empty.insert classShare

def samplePublisher : UniversePolling where
  exclude := [text "005930"]
  batchSize := 10
  dataSourceUrl := text "https://query1.finance.yahoo.com/v8/finance/chart"
  observed := false
  batch_pos := Nat.le_add_left 1 9

/-- The publisher inside, with the class share to poll. -/
def classShareConfig : UsPolling.Config where
  symbols := [text "BRK.B"]
  dataSourceUrl := samplePublisher.dataSourceUrl
  batchSize := samplePublisher.batchSize
  yahooSuffix := []
  yahooMap := [(text "BRK.B", text "BRK.B")]
  observed := false
  symbols_ne := List.cons_ne_nil _ _
  batch_pos := samplePublisher.batch_pos

theorem classShare_selected : selectedRows id classShareTable = [classShare] :=
  List.perm_singleton.mp (selectedRows_perm id classShareTable)

theorem classShare_started :
    samplePublisher.start (.ok (selectedRows id classShareTable)) =
      .ok (some classShareConfig) := by
  rw [classShare_selected]
  rfl

theorem classShare_fetched : Fetches (text "BRK.B") (text "NYSE") (text "BRK-B") :=
  @Fetches.american _ _ [] []
    (text "BRK.B", ⟨text "BRK.B", text "Berkshire Hathaway", text "Financials"⟩) classShare
    rfl rfl rfl rfl

/-- The class share is fetched as BRK-B and polled as BRK.B. -/
theorem classShare_polled_amiss :
    samplePublisher.start (.ok (selectedRows id classShareTable)) =
        .ok (some classShareConfig) ∧
      Fetches (text "BRK.B") (text "NYSE") (text "BRK-B") ∧
      classShareConfig.yahooSymbol (text "BRK.B") ≠ text "BRK-B" :=
  ⟨classShare_started, classShare_fetched, by decide⟩

theorem classShare_polls_as_fetched :
    text "BRK.B" ∈ classShareConfig.symbols ∧
      ¬ classShareConfig.yahooSymbol (text "BRK.B") = fetchSymbol (text "BRK.B") (text "NYSE") := by
  have hrow : classShare ∈ classShareTable.rows := List.mem_singleton_self classShare
  have h := polls_as_fetched_iff classShare_started hrow (by decide) (by decide)
  refine ⟨h.1, fun heq => ?_⟩
  rcases h.2.2.mp heq with hmarket | hticker
  · exact absurd hmarket (by decide)
  · exact absurd hticker (by decide)

end UniversePolling
end NexusBackend
