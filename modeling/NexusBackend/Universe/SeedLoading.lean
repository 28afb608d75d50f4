import NexusBackend.Persistence.SecuritiesLookup
import NexusBackend.Persistence.SeedRuns
import NexusBackend.Universe.BuildUniverse

/-!
From the builder of the universe to the readers: the rows of the file are upserted as a seed, and
`get_security` then finds each of their tickers.
-/
namespace NexusBackend

open Python KeyedTable

/-! ### Texts -/

/-- A literal of the source without a zero byte. -/
def IsStorable (s : String) : Bool := s.toByteArray.data.toList.all fun b => b != 0

theorem zero_mem_bytes {s : String} (h : 0 ∈ text s) : 0 ∈ s.toByteArray.data.toList := by
  obtain ⟨c, hc, hzero⟩ := List.mem_map.mp h
  have hnul : c = '\x00' := Char.toNat_inj.mp hzero
  have hbytes : s.toByteArray.data.toList = s.toList.flatMap String.utf8EncodeChar := by
    rw [← String.utf8Encode_toList, List.utf8Encode, List.data_toByteArray]
  rw [hbytes]
  refine List.mem_flatMap.mpr ⟨c, hc, ?_⟩
  rw [hnul]
  decide

theorem storable_text {s : String} (h : IsStorable s = true) : Storable (text s) := by
  constructor
  · intro c hc
    obtain ⟨c, -, rfl⟩ := List.mem_map.mp hc
    exact c.valid.imp_right fun h => ⟨h.1, h.2⟩
  · intro hzero
    have hbyte := List.all_eq_true.mp h 0 (zero_mem_bytes hzero)
    exact absurd hbyte (by decide)

theorem Storable.of_subset {s t : Text} (h : Storable s) (hsub : t ⊆ s) : Storable t :=
  storable_of_mem fun _ hc => h.of_mem (hsub hc)

theorem storable_natText (n : Nat) : Storable (natText n) := by
  refine storable_of_mem fun c hc => ?_
  obtain ⟨d, hd, rfl⟩ := List.mem_map.mp hc
  have hlt := natDigits_lt hd
  refine ⟨?_, ?_⟩
  · intro c hc
    rw [List.mem_singleton.mp hc]
    exact .inl (by omega)
  · rw [List.mem_singleton]
    omega

theorem storable_threeDigits (n : Nat) : Storable (threeDigits n) := by
  refine storable_append.mpr ⟨storable_of_mem fun c hc => ?_, storable_natText n⟩
  rw [List.eq_of_mem_replicate hc]
  decide

theorem splitHead_isHead (sep s : Text) : splitHead sep s <+: s := by
  induction s with
  | nil => exact List.prefix_rfl
  | cons c s ih =>
      rw [splitHead]
      split
      · exact List.nil_prefix
      · exact (List.prefix_cons_inj c).mpr ih

namespace Security

/-! ### Records -/

def numberJson : Option Number → Json
  | none => .null
  | some (.int n) => .int n
  | some (.float x) => .float x

/-- The record of a row in the file. -/
def toJson (s : Security) : Json :=
  .obj [(text "ticker", .str s.ticker), (text "name_ko", nullableJson s.nameKo),
    (text "name_en", nullableJson s.nameEn), (text "aliases", .arr (s.aliases.map .str)),
    (text "market", .str s.market), (text "sector", .str s.sector),
    (text "sector_label", .str s.sectorLabel), (text "currency", .str s.currency),
    (text "shares_outstanding", numberJson s.sharesOutstanding),
    (text "market_cap", numberJson s.marketCap), (text "is_subscribed", .bool s.isSubscribed),
    (text "data_source", .str s.dataSource)]

def texts (s : Security) : List Text :=
  [s.ticker, s.market, s.sector, s.sectorLabel, s.currency, s.dataSource] ++
    s.nameKo.toList ++ s.nameEn.toList ++ s.aliases

/-- `BIGINT` of a number. -/
def bigintOf : Option Number → Option Int
  | some (.int n) => some n
  | _ => none

/-- `DOUBLE PRECISION` of a number. -/
def doubleOf : Option Number → Option Python.Float
  | none => none
  | some (.int n) => (floatOfInt n).toOption
  | some (.float x) => some x

/-- The row of a record. -/
def toRow (s : Security) (now : UtcTime) : SecurityRow where
  ticker := s.ticker
  nameKo := s.nameKo
  nameEn := s.nameEn
  aliases := s.aliases
  market := s.market
  sector := s.sector
  sectorLabel := s.sectorLabel
  currency := s.currency
  sharesOutstanding := bigintOf s.sharesOutstanding
  marketCap := doubleOf s.marketCap
  isSubscribed := s.isSubscribed
  dataSource := s.dataSource
  updatedAt := now

/-- A number that the column `shares_outstanding` takes. -/
def IsBigint : Option Number → Prop
  | none => True
  | some (.int n) => -2 ^ 63 ≤ n ∧ n < 2 ^ 63
  | some (.float _) => False

/-- A number that the column `market_cap` takes. -/
def IsDouble : Option Number → Prop
  | some (.int n) => (floatOfInt n).isOk = true
  | _ => True

instance (x : Option Number) : Decidable (IsBigint x) :=
  match x with
  | none => .isTrue trivial
  | some (.int n) => inferInstanceAs (Decidable (-2 ^ 63 ≤ n ∧ n < 2 ^ 63))
  | some (.float _) => .isFalse id

instance (x : Option Number) : Decidable (IsDouble x) :=
  match x with
  | none => .isTrue trivial
  | some (.int n) => inferInstanceAs (Decidable ((floatOfInt n).isOk = true))
  | some (.float _) => .isTrue trivial

/-- The table takes the row. -/
structure Seedable (s : Security) : Prop where
  storable : ∀ t ∈ s.texts, Storable t
  market : s.market ∈ Market.members.map Market.value
  shares : IsBigint s.sharesOutstanding
  cap : IsDouble s.marketCap

instance (s : Security) : Decidable s.Seedable :=
  decidable_of_iff ((∀ t ∈ s.texts, Storable t) ∧ s.market ∈ Market.members.map Market.value ∧
      IsBigint s.sharesOutstanding ∧ IsDouble s.marketCap)
    ⟨fun h => ⟨h.1, h.2.1, h.2.2.1, h.2.2.2⟩, fun h => ⟨h.1, h.2, h.3, h.4⟩⟩

variable {driver : Driver} {now : UtcTime} {s : Security}

theorem Seedable.member (h : s.Seedable) {t : Text} (ht : t ∈ s.texts) : Storable t :=
  h.storable t ht

theorem text_nullable (driver : Driver) {x : Option Text} (h : ∀ t ∈ x, Storable t) :
    driver.text (nullableJson x) = .ok x := by
  cases x with
  | none => exact driver.text_null
  | some t => exact driver.text_str t (h t rfl)

theorem bigint_number (driver : Driver) {x : Option Number} (h : IsBigint x) :
    driver.bigint (numberJson x) = .ok (bigintOf x) := by
  cases x with
  | none => exact driver.bigint_null
  | some n =>
      cases n with
      | int n => exact driver.bigint_int n h.1 h.2
      | float x => exact h.elim

theorem double_number (driver : Driver) {x : Option Number} (h : IsDouble x) :
    driver.double (numberJson x) = .ok (doubleOf x) := by
  cases x with
  | none => exact driver.double_null
  | some n =>
      cases n with
      | float x => exact driver.double_float x
      | int n =>
          cases hn : floatOfInt n with
          | ok x =>
              rw [doubleOf, hn]
              exact driver.double_int n x hn
          | error e =>
              rw [IsDouble, hn] at h
              cases h

/-- What the statement iterates over for the aliases. -/
theorem iterate_aliases (aliases : List Text) :
    (Json.orElse (some (.arr (aliases.map .str))) (.arr [])).iterate =
      .ok (aliases.map Json.str) := by
  cases aliases with
  | nil => rfl
  | cons a aliases => rfl

/-- The statement proposes the row of the record. -/
theorem securityRow_toJson (h : s.Seedable) :
    securityRow driver now s.toJson = .ok (s.toRow now) := by
  have hticker := driver.text_str s.ticker (h.member (by simp [texts]))
  have hko : driver.text (nullableJson s.nameKo) = .ok s.nameKo :=
    text_nullable driver fun t ht => h.member (by simp_all [texts])
  have hen : driver.text (nullableJson s.nameEn) = .ok s.nameEn :=
    text_nullable driver fun t ht => h.member (by simp_all [texts])
  have haliases := driver.textArray_strs s.aliases fun t ht => h.member (by simp_all [texts])
  have hmarket := driver.text_str s.market (h.member (by simp [texts]))
  have hsector := driver.text_str s.sector (h.member (by simp [texts]))
  have hlabel := driver.text_str s.sectorLabel (h.member (by simp [texts]))
  have hcurrency := driver.text_str s.currency (h.member (by simp [texts]))
  have hsource := driver.text_str s.dataSource (h.member (by simp [texts]))
  have hread : securityRow driver now s.toJson = (do
      let aliases ← (Json.orElse (some (.arr (s.aliases.map .str))) (.arr [])).iterate
      let ticker ← driver.text (.str s.ticker)
      let nameKo ← driver.text (nullableJson s.nameKo)
      let nameEn ← driver.text (nullableJson s.nameEn)
      let aliases ← driver.textArray aliases
      let market ← driver.text (.str s.market)
      let sector ← driver.text (.str s.sector)
      let sectorLabel ← driver.text (.str s.sectorLabel)
      let currency ← driver.text (.str s.currency)
      let sharesOutstanding ← driver.bigint (numberJson s.sharesOutstanding)
      let marketCap ← driver.double (numberJson s.marketCap)
      let dataSource ← driver.text (.str s.dataSource)
      let ticker ← notNull ticker
      let market ← notNull market
      let sector ← notNull sector
      let sectorLabel ← notNull sectorLabel
      let currency ← notNull currency
      let dataSource ← notNull dataSource
      return {
        ticker := ticker
        nameKo := nameKo
        nameEn := nameEn
        aliases := aliases
        market := market
        sector := sector
        sectorLabel := sectorLabel
        currency := currency
        sharesOutstanding := sharesOutstanding
        marketCap := marketCap
        isSubscribed := s.isSubscribed
        dataSource := dataSource
        updatedAt := now }) := rfl
  rw [hread, iterate_aliases, hticker, hko, hen, hmarket, hsector, hlabel, hcurrency, hsource,
    bigint_number driver h.shares, double_number driver h.cap]
  simp only [ok_bind, haliases]
  rfl

theorem toRow_admitted (h : s.Seedable) : (s.toRow now).Admitted where
  storable t ht := h.storable t (by simpa [SecurityRow.texts, toRow, texts] using ht)
  market_check := h.market

theorem forall_texts_iff {P : Text → Prop} :
    (∀ t ∈ s.texts, P t) ↔ (P s.ticker ∧ P s.market ∧ P s.sector ∧ P s.sectorLabel ∧
        P s.currency ∧ P s.dataSource) ∧
      (∀ t ∈ s.nameKo, P t) ∧ (∀ t ∈ s.nameEn, P t) ∧ ∀ t ∈ s.aliases, P t := by
  simp only [texts, List.forall_mem_append, List.forall_mem_cons, Option.mem_toList, and_assoc,
    Option.mem_def, List.not_mem_nil, false_implies, implies_true, true_and]

end Security

/-! ### The rows of the builder -/

def KrxEntry.texts (e : KrxEntry) : List String :=
  [e.ticker, e.nameKo, e.nameEn, e.sector, e.sectorLabel] ++ e.aliases

def UsEntry.texts (e : UsEntry) : List String :=
  [e.ticker, e.nameEn, e.sector, e.sectorLabel, e.market]

theorem storable_krw : Storable (text "KRW") := by decide +kernel

theorem storable_usd : Storable (text "USD") := by decide +kernel

theorem storable_staticMaster : Storable (text "static_master") := by decide +kernel

theorem KrxEntry.toSecurity_seedable {market : Text} (hmarket : Storable market)
    (hmember : market ∈ Market.members.map Market.value) {e : KrxEntry}
    (h : ∀ t ∈ e.texts, IsStorable t = true) : (e.toSecurity market).Seedable where
  storable := by
    have hentry : ∀ t ∈ e.texts, Storable (text t) := fun t ht => storable_text (h t ht)
    simp only [texts, List.forall_mem_append, List.forall_mem_cons] at hentry
    obtain ⟨⟨hticker, hko, hen, hsector, hlabel, -⟩, haliases⟩ := hentry
    rw [Security.forall_texts_iff]
    refine ⟨⟨hticker, hmarket, hsector, hlabel, storable_krw, storable_staticMaster⟩, ?_, ?_, ?_⟩
    · rintro _ ⟨⟩
      exact hko
    · rintro _ ⟨⟩
      exact hen
    · exact List.forall_mem_map.mpr haliases
  market := hmember
  shares := trivial
  cap := trivial

theorem usEntryToSecurity_seedable {e : UsEntry}
    (hmember : text e.market ∈ Market.members.map Market.value)
    (h : ∀ t ∈ e.texts, IsStorable t = true) : (usEntryToSecurity e).Seedable where
  storable := by
    have hentry : ∀ t ∈ e.texts, Storable (text t) := fun t ht => storable_text (h t ht)
    simp only [UsEntry.texts, List.forall_mem_cons] at hentry
    obtain ⟨hticker, hen, hsector, hlabel, hmarket, -⟩ := hentry
    have hstem : Storable (strip (splitHead (text " Corp") (splitHead (text " Inc")
        (text e.nameEn)))) := by
      refine hen.of_subset ((strip_sublist _).trans ?_).subset
      exact (splitHead_isHead _ _).sublist.trans (splitHead_isHead _ _).sublist
    rw [Security.forall_texts_iff]
    refine ⟨⟨hticker, hmarket, hsector, hlabel, storable_usd, storable_staticMaster⟩, ?_, ?_, ?_⟩
    · rintro _ ⟨⟩
    · rintro _ ⟨⟩
      exact hen
    · exact List.forall_mem_cons.mpr ⟨hticker, List.forall_mem_singleton.mpr hstem⟩
  market := hmember
  shares := trivial
  cap := trivial

theorem makePadding_seedable {index market currency sector sectorLabel : Text}
    {sectorLabelKo : Option Text} {count : Nat} (hmember : market ∈ Market.members.map Market.value)
    (h : ∀ t ∈ [index, market, currency, sector, sectorLabel] ++ sectorLabelKo.toList, Storable t)
    {row : Security}
    (hrow : row ∈ makePadding index count market currency sector sectorLabel sectorLabelKo) :
    row.Seedable where
  storable := by
    obtain ⟨k, -, rfl⟩ := List.mem_map.mp hrow
    simp only [List.forall_mem_append, List.forall_mem_cons] at h
    obtain ⟨⟨hindex, hmarket, hcurrency, hsector, hlabel, -⟩, hko⟩ := h
    have hticker : Storable (text "PAD_" ++ index ++ text "_" ++ threeDigits (k + 1)) := by
      simp only [storable_append, storable_threeDigits, hindex, and_true]
      decide +kernel
    have hen : Storable (index ++ text " placeholder " ++ natText (k + 1)) := by
      simp only [storable_append, storable_natText, hindex, and_true, true_and]
      decide +kernel
    have hsource : Storable (text "static_master_padding") := by decide +kernel
    rw [Security.forall_texts_iff]
    refine ⟨⟨hticker, hmarket, hsector, hlabel, hcurrency, hsource⟩, ?_, ?_, ?_⟩
    · intro t ht
      obtain ⟨label, hlabel, rfl⟩ := Option.map_eq_some_iff.mp ht
      simp only [storable_append, storable_natText, and_true, hko label (by simp [hlabel]),
        true_and]
      decide +kernel
    · rintro _ ⟨⟩
      exact hen
    · exact List.forall_mem_nil _
  market := by
    obtain ⟨k, -, rfl⟩ := List.mem_map.mp hrow
    exact hmember
  shares := by
    obtain ⟨k, -, rfl⟩ := List.mem_map.mp hrow
    trivial
  cap := by
    obtain ⟨k, -, rfl⟩ := List.mem_map.mp hrow
    trivial

theorem tables_storable :
    ((IndexTables.kospi200 ++ IndexTables.kosdaq150).flatMap KrxEntry.texts ++
      (IndexTables.sp500 ++ IndexTables.nasdaq100Extra).flatMap UsEntry.texts).all IsStorable =
        true := by decide +kernel

theorem usTables_market :
    (IndexTables.sp500 ++ IndexTables.nasdaq100Extra).all
      (fun e => e.market = "NASDAQ" || e.market = "NYSE") = true := by decide +kernel

theorem indexRows_seedable {s : Security} (h : s ∈ indexRows) : s.Seedable := by
  have htables := List.all_eq_true.mp tables_storable
  have hmarkets := List.all_eq_true.mp usTables_market
  have hkrx {market : Text} (hmarket : Storable market)
      (hmember : market ∈ Market.members.map Market.value) {e : KrxEntry}
      (he : e ∈ IndexTables.kospi200 ++ IndexTables.kosdaq150) :
      (e.toSecurity market).Seedable :=
    e.toSecurity_seedable hmarket hmember fun t ht =>
      htables t (List.mem_append_left _ (List.mem_flatMap.mpr ⟨e, he, ht⟩))
  have hus {e : UsEntry} (he : e ∈ IndexTables.sp500 ++ IndexTables.nasdaq100Extra) :
      (usEntryToSecurity e).Seedable := by
    refine usEntryToSecurity_seedable ?_ fun t ht =>
      htables t (List.mem_append_right _ (List.mem_flatMap.mpr ⟨e, he, ht⟩))
    have hmarket := hmarkets e he
    rw [Bool.or_eq_true, decide_eq_true_iff, decide_eq_true_iff] at hmarket
    rcases hmarket with hmarket | hmarket
    · rw [hmarket]
      decide +kernel
    · rw [hmarket]
      decide +kernel
  have husRows {table : List UsEntry}
      (htable : ∀ e ∈ table, e ∈ IndexTables.sp500 ++ IndexTables.nasdaq100Extra)
      (hs : s ∈ usRows table) : s.Seedable := by
    obtain ⟨e, he, rfl⟩ := List.mem_map.mp hs
    exact hus (htable e (List.mem_of_mem_filter he))
  simp only [indexRows, List.mem_append] at h
  rcases h with ((h | h) | h) | h
  · obtain ⟨e, he, rfl⟩ := List.mem_map.mp h
    exact hkrx (by decide +kernel) (by decide +kernel) (List.mem_append_left _ he)
  · obtain ⟨e, he, rfl⟩ := List.mem_map.mp h
    exact hkrx (by decide +kernel) (by decide +kernel) (List.mem_append_right _ he)
  · exact husRows (fun e he => List.mem_append_left _ he) h
  · exact husRows (fun e he => List.mem_append_right _ he) h

theorem paddingFor_seedable {securities : List Security} {row : Security}
    (h : row ∈ paddingFor securities) : row.Seedable := by
  rcases List.mem_append.mp h with h | h
  · rcases List.mem_append.mp h with h | h
    · exact makePadding_seedable (by decide +kernel) (by decide +kernel) h
    · exact makePadding_seedable (by decide +kernel) (by decide +kernel) h
  · exact makePadding_seedable (by decide +kernel) (by decide +kernel) h

/-- The builder adds no row that the table refuses. -/
theorem buildUniverse_seedable {file : Option Seed}
    (hrows : ∀ s ∈ (Seed.load file).securities, s.Seedable) :
    ∀ s ∈ (buildUniverse file).securities, s.Seedable := by
  intro s hs
  rw [buildUniverse_securities, collectRows_eq] at hs
  rcases List.mem_append.mp hs with hs | hs
  · rcases mem_addAllNew hs with hs | hs
    · exact hrows s hs
    · exact indexRows_seedable hs
  · exact paddingFor_seedable hs

/-! ### The file in the tables -/

/-- `run` of the script that applies the file: the one call of `upsert_seed` in it. -/
def Seed.run (seed : Seed) (now : UtcTime) : SeedRun where
  securities := .arr (seed.securities.map Security.toJson)
  relations := .arr seed.relations
  now := now
  lost _ := none

theorem Seed.run_writes (driver : Driver) (seed : Seed) (now : UtcTime)
    (hrows : ∀ s ∈ seed.securities, s.Seedable)
    (hedges : ∀ r ∈ seed.relations, ∃ row, relationRow driver now r = .ok row ∧ row.Admitted) :
    ∃ edges, (seed.run now).Writes driver (seed.securities.map Security.toJson) seed.relations
      (seed.securities.map fun s => s.toRow now) edges := by
  have hproposed : ∀ r ∈ seed.relations, ∃ row, relationRow driver now r = .ok row ∧
      relationRow driver now r = .ok row ∧ row.Admitted := by
    intro r hr
    obtain ⟨row, hrow⟩ := hedges r hr
    exact ⟨row, hrow.1, hrow⟩
  obtain ⟨edges, -, hedges⟩ := mapM_forall₂ hproposed
  refine ⟨edges, rfl, rfl, ?_, hedges.flip, fun _ _ => rfl⟩
  rw [List.forall₂_map_left_iff, List.forall₂_map_right_iff, List.forall₂_same]
  exact fun s hs => ⟨Security.securityRow_toJson (hrows s hs), Security.toRow_admitted (hrows s hs)⟩

theorem lastUnder_toRow (now : UtcTime) (ticker : Text) (securities : List Security) :
    lastUnder SecurityRow.ticker ticker (securities.map fun s => s.toRow now) =
      (lastUnder Security.ticker ticker securities).map fun s => s.toRow now := by
  rw [lastUnder, ← List.map_reverse, List.find?_map]
  rfl

namespace SearchDatabase

variable {κ : Type} (db : SearchDatabase κ)

end SearchDatabase

end NexusBackend
