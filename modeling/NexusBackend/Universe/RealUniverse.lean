import NexusBackend.Library.Statistics
import NexusBackend.Universe.ListingTables
import NexusBackend.Universe.Models

/-!
`build_real_universe`: the seed without its placeholders, with the listings of the tables and
of Wikipedia and the figures of Yahoo Finance.

The rows of the two Wikipedia tables are given, and so is what `yfinance` answers at each of
its calls. The pauses between the calls, the printed statistics and the log are left out.
-/
namespace NexusBackend

open Python

/-! ### The sources -/

/-- A row of a Wikipedia table, as far as it is read. -/
structure WikiRow where
  ticker : Text
  name : Text
  gicsSector : Text

/-- `Ticker(symbol).info`, as far as it is read. -/
structure YahooInfo where
  longName : Option Text := none
  shortName : Option Text := none
  exchange : Option Text := none
  market : Option Text := none
  regularMarketPrice : Option Number := none
  marketCap : Option Number := none
  sharesOutstanding : Option Number := none
  impliedSharesOutstanding : Option Number := none

/-- A call of `yfinance`, numbered within its batch run. -/
abbrev YahooFinance := Nat → Text → Except Exn YahooInfo

/-- `value or None` of a figure. -/
def present (x : Option Number) : Option Number := x.filter Number.truthy

/-- `value or None` of a text. -/
def presentText (s : Option Text) : Option Text := s.filter fun s => s ≠ []

/-- The answers that `_batch_fetch` keeps. -/
def YahooInfo.isKept (info : YahooInfo) : Bool :=
  info.regularMarketPrice.isSome || (present info.marketCap).isSome

/-- `_batch_fetch`. -/
def batchFetch (yf : YahooFinance) (symbols : List Text) : List (Text × YahooInfo) :=
  symbols.zipIdx.foldl (fun results (symbol, call) =>
    match yf call symbol with
    | .ok info => if info.isKept then Json.setKey symbol info results else results
    | .error _ => results) []

/-- `_yahoo_symbol`. -/
def yahooSymbol (ticker market : Text) : Text :=
  if market = text "KRX" then ticker ++ text ".KS"
  else if market = text "KOSDAQ" then ticker ++ text ".KQ"
  else ticker

/-- `_yahoo_us_symbol`: a hyphen for each full stop. -/
def yahooUsSymbol (ticker : Text) : Text := ticker.map fun c => if c = 46 then 45 else c

/-- `s.upper()`, as far as a comparison with the names of the exchanges tells. -/
def exchangeUpper (s : Text) : Text :=
  s.map fun c => if 97 ≤ c ∧ c ≤ 122 then c - 32 else if c = 0x17f then 83 else c

/-- `_market_from_exchange`. -/
def marketFromExchange (info : Option YahooInfo) (ticker : Text) : Text :=
  let exchange := exchangeUpper ((info.bind YahooInfo.exchange).getD [])
  let market := exchangeUpper ((info.bind YahooInfo.market).getD [])
  if exchange ∈ ["NMS", "NGM", "NCM", "NASDAQ", "NMQ"].map text ∨
      market ∈ ["NMS", "NGM"].map text then text "NASDAQ"
  else if exchange ∈ ["NYQ", "NYSE", "ASE"].map text ∨ market ∈ ["NYQ"].map text then text "NYSE"
  else if ticker ∈ ListingTables.nasdaqExchangeTickers.map text then text "NASDAQ"
  else text "NYSE"

/-- `_sector_from_gics`. -/
def sectorFromGics (gics : Text) : Text × Text :=
  match ListingTables.gicsMap.find? fun row => text row.1 = gics with
  | some row => (text row.2.1, text row.2.2)
  | none => (text "OTHER_US", text "Other US")

/-! ### The entries -/

/-- An entry of `kr_entries`. -/
structure KrListing where
  nameKo : Text
  nameEn : Text
  market : Text
  sector : Text
  sectorLabel : Text

def ListingEntry.toListing (market : Text) (e : ListingEntry) : KrListing where
  nameKo := text e.nameKo
  nameEn := text e.nameEn
  market := market
  sector := text e.sector
  sectorLabel := text e.sectorLabel

/-- `dict.setdefault`. -/
def setDefault {α : Type} (pairs : List (Text × α)) (key : Text) (value : α) :
    List (Text × α) :=
  if key ∈ pairs.map Prod.fst then pairs else Json.setKey key value pairs

def krEntries : List (Text × KrListing) :=
  let kospi := ListingTables.kospiFull.foldl (fun entries e =>
    Json.setKey (text e.ticker) (e.toListing (text "KRX")) entries) []
  ListingTables.kosdaqFull.foldl (fun entries e =>
    setDefault entries (text e.ticker) (e.toListing (text "KOSDAQ"))) kospi

def usEntries (sp500 nq100 : List WikiRow) : List (Text × WikiRow) :=
  let entries := sp500.foldl (fun entries row => Json.setKey row.ticker row entries) []
  nq100.foldl (fun entries row => setDefault entries row.ticker row) entries

/-- `existing`: the rows of the seed by ticker. -/
def existingRows (securities : List Security) : List (Text × Security) :=
  securities.foldl (fun rows s => Json.setKey s.ticker s rows) []

/-- `kr_yf`. -/
def krYahoo (yf : YahooFinance) : List (Text × YahooInfo) :=
  batchFetch yf (krEntries.map fun (ticker, e) => yahooSymbol ticker e.market)

/-- `us_yf`: the answers under the tickers. -/
def usYahoo (yf : YahooFinance) (entries : List (Text × WikiRow)) : List (Text × YahooInfo) :=
  let raw := batchFetch yf (entries.map fun p => yahooUsSymbol p.1)
  entries.filterMap fun p => (Json.get? raw (yahooUsSymbol p.1)).map fun info => (p.1, info)

/-! ### The rows -/

/-- `info.get("longName") or info.get("shortName") or default`. -/
def englishName (info : Option YahooInfo) (default : Text) : Text :=
  ((presentText (info.bind YahooInfo.longName)).or
    (presentText (info.bind YahooInfo.shortName))).getD default

/-- `market_cap`, where it counts. -/
def capOf (info : Option YahooInfo) : Option Number := present (info.bind YahooInfo.marketCap)

/-- `shares`, where they count. -/
def sharesOf (info : Option YahooInfo) : Option Number :=
  (present (info.bind YahooInfo.sharesOutstanding)).or
    (present (info.bind YahooInfo.impliedSharesOutstanding))

/-- `float(market_cap) if market_cap else None`. -/
def floatCap (cap : Option Number) : Except Exn (Option Number) :=
  cap.mapM fun x => Number.float <$> x.toFloat

/-- `int(shares) if shares else None`. -/
def intShares (shares : Option Number) : Except Exn (Option Number) :=
  shares.mapM fun x => Number.int <$> x.toInt

/-- A subscribed row with the new figures. -/
def Security.withFigures (row : Security) (cap shares : Option Number) : Except Exn Security := do
  let newCap ← floatCap cap
  let newShares ← intShares shares
  return { row with
    marketCap := newCap.or row.marketCap
    sharesOutstanding := newShares.or row.sharesOutstanding }

def sourceOf (info : Option YahooInfo) : Text :=
  if info.isSome then text "yahoo_finance" else text "static_master"

/-- The row of one Korean ticker; none where it is skipped. -/
def krRow (existing : List (Text × Security)) (yahoo : List (Text × YahooInfo))
    (entry : Text × KrListing) : Except Exn (Option Security) := do
  let (ticker, e) := entry
  let info := Json.get? yahoo (yahooSymbol ticker e.market)
  let nameEn := englishName info e.nameEn
  let old := Json.get? existing ticker
  match old.filter Security.isSubscribed with
  | some row =>
      let named := if presentText row.nameEn = none ∧ nameEn ≠ [] then
        { row with nameEn := some nameEn } else row
      let row ← named.withFigures (capOf info) (sharesOf info)
      return some { row with
        dataSource := if info.isSome then text "yahoo_finance" else row.dataSource }
  | none =>
      if info.isNone ∧ e.nameEn = [] then return none
      else
        let shares ← intShares (sharesOf info)
        let cap ← floatCap (capOf info)
        return some {
          ticker := ticker
          nameKo := some e.nameKo
          nameEn := some nameEn
          aliases := (old.map Security.aliases).getD []
          market := e.market
          sector := (old.map Security.sector).getD e.sector
          sectorLabel := (old.map Security.sectorLabel).getD e.sectorLabel
          currency := text "KRW"
          sharesOutstanding := shares
          marketCap := cap
          isSubscribed := false
          dataSource := sourceOf info }

/-- The row of one US ticker. -/
def usRow (existing : List (Text × Security)) (yahoo : List (Text × YahooInfo))
    (entry : Text × WikiRow) : Except Exn Security := do
  let (ticker, wiki) := entry
  let info := Json.get? yahoo ticker
  match (Json.get? existing ticker).filter Security.isSubscribed with
  | some row => row.withFigures (capOf info) (sharesOf info)
  | none =>
      let shares ← intShares (sharesOf info)
      let cap ← floatCap (capOf info)
      return {
        ticker := ticker
        nameKo := none
        nameEn := some (englishName info wiki.name)
        aliases := [ticker]
        market := marketFromExchange info ticker
        sector := (sectorFromGics wiki.gicsSector).1
        sectorLabel := (sectorFromGics wiki.gicsSector).2
        currency := text "USD"
        sharesOutstanding := shares
        marketCap := cap
        isSubscribed := false
        dataSource := sourceOf info }

/-- Steps 5a to 5c: the first row of each ticker stays. -/
def realRows (securities : List Security) (sp500 nq100 : List WikiRow) (krYf usYf : YahooFinance) :
    Except Exn (List Security) := do
  let existing := existingRows securities
  let kr ← krEntries.mapM (krRow existing (krYahoo krYf))
  let us ← (usEntries sp500 nq100).mapM
    (usRow existing (usYahoo usYf (usEntries sp500 nq100)))
  let kept := (existing.map Prod.snd).filter fun row => !decide row.IsPadding
  return Security.merge (Security.merge (Security.merge [] kr.reduceOption) us) kept

/-! ### Estimates -/

/-- The market cap of a row, where it came from Yahoo, with sector and market. -/
def yahooCap (s : Security) : Except Exn (Option (Text × Text × Python.Float)) :=
  if s.dataSource = text "yahoo_finance" then
    (present s.marketCap).mapM fun cap => (fun cap => (s.sector, s.market, cap)) <$> cap.toFloat
  else return none

def yahooCaps (securities : List Security) : Except Exn (List (Text × Text × Python.Float)) :=
  List.reduceOption <$> securities.mapM yahooCap

/-- `caps`: those of the sector in the market, of the sector, or of the market. -/
def fallbackCaps (caps : List (Text × Text × Python.Float)) (sector market : Text) :
    List Python.Float :=
  let both := caps.filter fun c => c.1 = sector && c.2.1 = market
  let bySector := caps.filter fun c => c.1 = sector
  let byMarket := caps.filter fun c => c.2.1 = market
  (if both ≠ [] then both else if bySector ≠ [] then bySector else byMarket).map fun c => c.2.2

def Security.estimate (caps : List (Text × Text × Python.Float)) (s : Security) : Security :=
  if s.marketCap ≠ none ∨ s.dataSource ≠ text "static_master" then s
  else
    match fallbackCaps caps s.sector s.market with
    | [] => s
    | cs => { s with marketCap := some (.float (median cs)), dataSource := text "estimated" }

/-- `_apply_sector_median_estimates`. -/
def applySectorMedianEstimates (securities : List Security) : Except Exn (List Security) := do
  let caps ← yahooCaps securities
  return securities.map (Security.estimate caps)

def realUniverseNote : Text :=
  text "Real-data universe — KOSPI 200 + KOSDAQ 150 + S&P 500 + NASDAQ 100. " ++
  text "data_source='yahoo_finance' = enriched from Yahoo Finance. " ++
  text "data_source='estimated' = sector-median market_cap assigned (no direct Yahoo data). " ++
  text "data_source='static_master' = name/sector only, no market_cap available. " ++
  text "All PAD_* placeholder rows removed. " ++
  text "12 KIS is_subscribed=true rows preserve live market caps."

/-- `build_real_universe`. -/
def buildRealUniverse (file : Option Seed) (sp500 nq100 : List WikiRow)
    (krYf usYf : YahooFinance) : Except Exn Seed := do
  let seed := Seed.load file
  let rows ← realRows seed.securities sp500 nq100 krYf usYf
  return {
    schemaVersion := 3
    note := realUniverseNote
    securities := ← applySectorMedianEstimates rows
    relations := seed.relations }

end NexusBackend
