import NexusBackend.Universe.IndexTables
import NexusBackend.Universe.Models

/-!
`build_universe` without the fetch from Yahoo: the rows of the seed, the index tables, and
placeholders up to the size of each index.

The `seen` set of the source holds the tickers of the rows collected so far, so membership
in it is written as that.
-/
namespace NexusBackend

open Python

/-- `s.split(sep)[0]`. -/
def splitHead (sep : Text) : Text → Text
  | [] => []
  | c :: s => if sep.isPrefixOf (c :: s) then [] else c :: splitHead sep s

/-- `f"{n:03d}"`. -/
def threeDigits (n : Nat) : Text := List.replicate (3 - (natText n).length) 48 ++ natText n

/-- A row of a KRX table as a security of `market`. -/
def KrxEntry.toSecurity (market : Text) (e : KrxEntry) : Security where
  ticker := text e.ticker
  nameKo := some (text e.nameKo)
  nameEn := some (text e.nameEn)
  aliases := e.aliases.map text
  market := market
  sector := text e.sector
  sectorLabel := text e.sectorLabel
  currency := text "KRW"
  sharesOutstanding := none
  marketCap := none
  isSubscribed := false
  dataSource := text "static_master"

/-- `_kospi_entry_to_security`. -/
def kospiEntryToSecurity : KrxEntry → Security := KrxEntry.toSecurity (text "KRX")

/-- `_kosdaq_entry_to_security`. -/
def kosdaqEntryToSecurity : KrxEntry → Security := KrxEntry.toSecurity (text "KOSDAQ")

/-- `_us_entry_to_security`. -/
def usEntryToSecurity (e : UsEntry) : Security where
  ticker := text e.ticker
  nameKo := none
  nameEn := some (text e.nameEn)
  aliases := [text e.ticker,
    strip (splitHead (text " Corp") (splitHead (text " Inc") (text e.nameEn)))]
  market := text e.market
  sector := text e.sector
  sectorLabel := text e.sectorLabel
  currency := text "USD"
  sharesOutstanding := none
  marketCap := none
  isSubscribed := false
  dataSource := text "static_master"

/-- A ticker that only marks a duplicate. -/
def UsEntry.isMarker (e : UsEntry) : Bool :=
  (text "_NQ").isSuffixOf (text e.ticker) || (text "_SOFTWARE").isSuffixOf (text e.ticker)

def usRows (entries : List UsEntry) : List Security :=
  (entries.filter fun e => !e.isMarker).map usEntryToSecurity

/-- `_make_padding`. -/
def makePadding (index : Text) (count : Nat) (market currency sector sectorLabel : Text)
    (sectorLabelKo : Option Text) : List Security :=
  (List.range count).map fun k => {
    ticker := text "PAD_" ++ index ++ text "_" ++ threeDigits (k + 1)
    nameKo := sectorLabelKo.map fun label =>
      label ++ text " " ++ natText (k + 1) ++ text "번 (예비)"
    nameEn := some (index ++ text " placeholder " ++ natText (k + 1))
    aliases := []
    market := market
    sector := sector
    sectorLabel := sectorLabel
    currency := currency
    sharesOutstanding := none
    marketCap := none
    isSubscribed := false
    dataSource := text "static_master_padding" }

def universeNote : Text :=
  text "Sprint 5s+ extended universe — KOSPI 200 + KOSDAQ 150 + S&P 500 + " ++
  text "Nasdaq 100. Hand-curated leaders carry data_source='static_master'; " ++
  text "padding rows (PAD_*) carry data_source='static_master_padding' so " ++
  text "they're easy to filter out. Original 12 KIS subscriptions retain " ++
  text "is_subscribed=true with their accurate market caps."

/-- A row that `market_counts` counts for `market`. -/
def Security.countsFor (market : Text) (s : Security) : Bool :=
  s.dataSource = text "static_master" && s.market = market

/-- The placeholder rows behind `securities`. -/
def paddingFor (securities : List Security) : List Security :=
  let real := fun market => securities.countP (Security.countsFor (text market))
  makePadding (text "KOSPI") (200 - real "KRX") (text "KRX") (text "KRW") (text "OTHER")
      (text "기타") (some (text "KOSPI 예비")) ++
    makePadding (text "KOSDAQ") (150 - real "KOSDAQ") (text "KOSDAQ") (text "KRW") (text "OTHER")
      (text "기타") (some (text "KOSDAQ 예비")) ++
    makePadding (text "SP500") (500 - (real "NASDAQ" + real "NYSE")) (text "NYSE") (text "USD")
      (text "OTHER_US") (text "Other US Equity") none

/-- The rows of the seed and of the four tables. -/
def collectRows (securities : List Security) : List Security :=
  let securities := Security.merge securities (IndexTables.kospi200.map kospiEntryToSecurity)
  let securities := Security.merge securities (IndexTables.kosdaq150.map kosdaqEntryToSecurity)
  let securities := Security.merge securities (usRows IndexTables.sp500)
  Security.merge securities (usRows IndexTables.nasdaq100Extra)

/-- `build_universe`, by default without Yahoo. -/
def buildUniverse (file : Option Seed) : Seed :=
  let seed := Seed.load file
  let securities := collectRows seed.securities
  { schemaVersion := 3
    note := universeNote
    securities := securities ++ paddingFor securities
    relations := seed.relations }

/-! ### The rows collected -/

/-- The rows of the four tables. -/
def indexRows : List Security :=
  IndexTables.kospi200.map kospiEntryToSecurity ++
    IndexTables.kosdaq150.map kosdaqEntryToSecurity ++ usRows IndexTables.sp500 ++
    usRows IndexTables.nasdaq100Extra

open KeyedTable

theorem collectRows_eq (securities : List Security) :
    collectRows securities = addAllNew Security.ticker securities indexRows := by
  simp only [collectRows, indexRows, Security.merge, addAllNew_append]

/-- The rows of the tables whose tickers the seed does not have. -/
def newRows (securities : List Security) : List Security :=
  (collectRows []).filter fun row => row.ticker ∉ securities.map Security.ticker

theorem collectRows_eq_append (securities : List Security) :
    collectRows securities = securities ++ newRows securities := by
  rw [collectRows_eq, addAllNew_eq_append, newRows, collectRows_eq]
  exact congrArg _ (List.filter_congr fun _ _ => decide_eq_decide.mpr Iff.rfl)

/-- Rows that hold every ticker of the tables stay as they are. -/
theorem collectRows_of_taken {securities : List Security}
    (h : ∀ row ∈ indexRows, row.ticker ∈ securities.map Security.ticker) :
    collectRows securities = securities := by
  rw [collectRows_eq]
  exact addAllNew_of_taken h

theorem ticker_mem_collectRows (securities : List Security) {row : Security}
    (h : row ∈ indexRows) : row.ticker ∈ (collectRows securities).map Security.ticker := by
  rw [collectRows_eq]
  exact mem_keys_addAllNew.mpr (.inr (List.mem_map_of_mem h))

/-! ### Placeholders -/

theorem isPadding_of_mem_makePadding {index market currency sector sectorLabel : Text}
    {sectorLabelKo : Option Text} {count : Nat} {row : Security}
    (h : row ∈ makePadding index count market currency sector sectorLabel sectorLabelKo) :
    row.IsPadding := by
  obtain ⟨k, -, rfl⟩ := List.mem_map.mp h
  rfl

theorem isPadding_of_mem_paddingFor {securities : List Security} {row : Security}
    (h : row ∈ paddingFor securities) : row.IsPadding := by
  rcases List.mem_append.mp h with h | h
  · rcases List.mem_append.mp h with h | h
    · exact isPadding_of_mem_makePadding h
    · exact isPadding_of_mem_makePadding h
  · exact isPadding_of_mem_makePadding h

theorem countsFor_of_isPadding {row : Security} (h : row.IsPadding) (market : Text) :
    row.countsFor market = false := by
  have hsource : row.dataSource ≠ text "static_master" := by
    rw [h]
    decide
  simp [Security.countsFor, hsource]

/-- Placeholders are not counted when the next ones are made. -/
theorem paddingFor_append_padding {securities padding : List Security}
    (h : ∀ row ∈ padding, row.IsPadding) :
    paddingFor (securities ++ padding) = paddingFor securities := by
  have hcount (market : Text) : (securities ++ padding).countP (Security.countsFor market) =
      securities.countP (Security.countsFor market) := by
    have hnone : padding.countP (Security.countsFor market) = 0 := by
      refine List.countP_eq_zero.mpr fun row hrow => ?_
      rw [countsFor_of_isPadding (h row hrow)]
      exact Bool.false_ne_true
    rw [List.countP_append, hnone, Nat.add_zero]
  simp only [paddingFor, hcount]

theorem makePadding_eq_nil_iff {index market currency sector sectorLabel : Text}
    {sectorLabelKo : Option Text} {count : Nat} :
    makePadding index count market currency sector sectorLabel sectorLabelKo = [] ↔
      count = 0 := by
  rw [makePadding, List.map_eq_nil_iff, List.range_eq_nil]

/-- The rows of `market` that count towards the size of its index: those of the seed, and
those of the tables that the seed does not have. -/
def reached (securities : List Security) (market : String) : Nat :=
  securities.countP (Security.countsFor (text market)) +
    (newRows securities).countP (Security.countsFor (text market))

/-- Some index does not reach its size. -/
def PaddingDue (securities : List Security) : Prop :=
  reached securities "KRX" < 200 ∨ reached securities "KOSDAQ" < 150 ∨
    reached securities "NASDAQ" + reached securities "NYSE" < 500

theorem paddingFor_eq_nil_iff (securities : List Security) :
    paddingFor (collectRows securities) = [] ↔ ¬ PaddingDue securities := by
  have hreached (market : String) : (collectRows securities).countP
      (Security.countsFor (text market)) = reached securities market := by
    rw [collectRows_eq_append, List.countP_append, reached]
  simp only [paddingFor, List.append_eq_nil_iff, makePadding_eq_nil_iff, hreached, PaddingDue]
  omega

/-! ### Two runs -/

theorem buildUniverse_securities (file : Option Seed) :
    (buildUniverse file).securities = collectRows (Seed.load file).securities ++
      paddingFor (collectRows (Seed.load file).securities) := rfl

/-- A second run appends the placeholders of the first once more. -/
theorem buildUniverse_again (file : Option Seed) :
    (buildUniverse (some (buildUniverse file))).securities = (buildUniverse file).securities ++
      paddingFor (collectRows (Seed.load file).securities) := by
  have htaken : collectRows (buildUniverse file).securities = (buildUniverse file).securities := by
    refine collectRows_of_taken fun row hrow => ?_
    rw [buildUniverse_securities, List.map_append]
    exact List.mem_append_left _ (ticker_mem_collectRows _ hrow)
  rw [buildUniverse_securities (some _)]
  change collectRows (buildUniverse file).securities ++
    paddingFor (collectRows (buildUniverse file).securities) = _
  rw [htaken, buildUniverse_securities, paddingFor_append_padding]
  exact fun row hrow => isPadding_of_mem_paddingFor hrow

theorem buildUniverse_fixed_iff (file : Option Seed) :
    (buildUniverse (some (buildUniverse file))).securities = (buildUniverse file).securities ↔
      ¬ PaddingDue (Seed.load file).securities := by
  rw [buildUniverse_again, List.append_right_eq_self, paddingFor_eq_nil_iff]

theorem reached_nil_le (market : String) :
    reached [] market ≤ indexRows.countP (Security.countsFor (text market)) := by
  have hsub : (newRows []).Sublist indexRows := by
    rw [newRows, collectRows_eq]
    exact List.filter_sublist.trans (addAllNew_sublist _)
  rw [reached, List.countP_nil, Nat.zero_add]
  exact hsub.countP_le

set_option maxRecDepth 4000 in
/-- The tables have 72 tickers for the KOSPI 200. -/
theorem paddingDue_nil : PaddingDue [] := by
  have hcount : indexRows.countP (Security.countsFor (text "KRX")) = 72 := by decide +kernel
  have hle := reached_nil_le "KRX"
  rw [hcount] at hle
  exact .inl (by omega)

end NexusBackend
