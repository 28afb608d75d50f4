import NexusBackend.Library.Upserts
import NexusBackend.Persistence.Decode
import NexusBackend.Persistence.RelationsQuery

/-!
`upsert_seed`: the records of a seed are written to `security_master` and `security_relation` in
one transaction.

The records are decoded JSON. The driver encodes what its documentation lists for the type of a
column, and no text that the database cannot hold; of other values nothing is said, but that NULL
is among no aliases. The connection may be lost at any statement; the commit itself is not.
-/
namespace NexusBackend

open Python

/-- How the driver encodes the arguments of a statement. -/
structure Driver where
  text : Json → Except Exn (Option Text)
  textArray : List Json → Except Exn (List Text)
  bigint : Json → Except Exn (Option Int)
  double : Json → Except Exn (Option Python.Float)
  text_storable : ∀ v s, text v = .ok (some s) → Storable s
  text_null : text .null = .ok none
  text_str : ∀ s, Storable s → text (.str s) = .ok (some s)
  textArray_storable : ∀ vs ss, textArray vs = .ok ss → ∀ s ∈ ss, Storable s
  textArray_strs : ∀ ss : List Text, (∀ s ∈ ss, Storable s) → textArray (ss.map .str) = .ok ss
  bigint_null : bigint .null = .ok none
  bigint_int : ∀ n, -2 ^ 63 ≤ n → n < 2 ^ 63 → bigint (.int n) = .ok (some n)
  double_null : double .null = .ok none
  double_float : ∀ x, double (.float x) = .ok (some x)
  double_int : ∀ n x, floatOfInt n = .ok x → double (.int n) = .ok (some x)

/-! ### Tables -/

/-- What the columns of `security_master` admit. -/
structure SecurityRow.Admitted (row : SecurityRow) : Prop where
  storable : ∀ s ∈ row.texts, Storable s
  market_check : row.market ∈ Market.members.map Market.value

instance (row : SecurityRow) : Decidable row.Admitted :=
  decidable_of_iff ((∀ s ∈ row.texts, Storable s) ∧
      row.market ∈ Market.members.map Market.value)
    ⟨fun h => ⟨h.1, h.2⟩, fun h => ⟨h.1, h.2⟩⟩

abbrev AdmittedSecurity := { row : SecurityRow // row.Admitted }

abbrev AdmittedRelation := { row : RelationRow // row.Admitted }

/-- The constraints of a table let the row in. -/
def admitRow {ρ : Type} (P : ρ → Prop) [DecidablePred P] (row : ρ) : Except Exn { row // P row } :=
  if h : P row then .ok ⟨row, h⟩ else raise postgresError

/-- A column that is `NOT NULL`. -/
def notNull {α : Type} : Option α → Except Exn α
  | some a => .ok a
  | none => raise postgresError

def SecurityTable.upsert (table : SecurityTable) (row : AdmittedSecurity) : SecurityTable where
  toKeyedTable := table.toKeyedTable.upsert row.val
  storable r hr := by
    rcases KeyedTable.mem_putRow hr with rfl | hr
    · exact row.property.storable
    · exact table.storable r hr
  market_check r hr := by
    rcases KeyedTable.mem_putRow hr with rfl | hr
    · exact row.property.market_check
    · exact table.market_check r hr

def RelationTable.upsert (table : RelationTable) (row : AdmittedRelation) : RelationTable where
  toKeyedTable := table.toKeyedTable.upsert row.val
  admitted r hr := by
    rcases KeyedTable.mem_putRow hr with rfl | hr
    · exact row.property
    · exact table.admitted r hr

structure SecuritiesDb where
  master : SecurityTable
  relation : RelationTable

/-- `async with conn.transaction()`: a block that raises leaves the tables as they were. -/
def transaction {σ α : Type} (block : σ → Except Exn (σ × α)) (db : σ) : σ × Except Exn α :=
  match block db with
  | .ok (db', a) => (db', .ok a)
  | .error e => (db, .error e)

/-! ### Records -/

/-- The row that the first statement proposes for a record. -/
def securityRow (driver : Driver) (now : UtcTime) (s : Json) : Except Exn SecurityRow := do
  let ticker ← s.index (text "ticker")
  let nameKo ← s.dictGet (text "name_ko")
  let nameEn ← s.dictGet (text "name_en")
  let aliases ← (Json.orElse (← s.dictGet (text "aliases")) (.arr [])).iterate
  let market ← s.index (text "market")
  let sector ← s.index (text "sector")
  let sectorLabel ← s.index (text "sector_label")
  let currency ← s.index (text "currency")
  let sharesOutstanding ← s.dictGet (text "shares_outstanding")
  let marketCap ← s.dictGet (text "market_cap")
  let isSubscribed ← s.dictGet (text "is_subscribed")
  let dataSource ← s.dictGet (text "data_source")
  let ticker ← driver.text ticker
  let nameKo ← driver.text (nameKo.getD .null)
  let nameEn ← driver.text (nameEn.getD .null)
  let aliases ← driver.textArray aliases
  let market ← driver.text market
  let sector ← driver.text sector
  let sectorLabel ← driver.text sectorLabel
  let currency ← driver.text currency
  let sharesOutstanding ← driver.bigint (sharesOutstanding.getD .null)
  let marketCap ← driver.double (marketCap.getD .null)
  let dataSource ← driver.text (dataSource.getD (.str (text "static_master")))
  let ticker ← notNull ticker
  let market ← notNull market
  let sector ← notNull sector
  let sectorLabel ← notNull sectorLabel
  let currency ← notNull currency
  let dataSource ← notNull dataSource
  return {
    ticker := ticker
    nameKo := nameKo
    nameEn := nameEn
    aliases := aliases
    market := market
    sector := sector
    sectorLabel := sectorLabel
    currency := currency
    sharesOutstanding := sharesOutstanding
    marketCap := marketCap
    isSubscribed := (isSubscribed.getD (.bool false)).truthy
    dataSource := dataSource
    updatedAt := now }

/-- The row that the second statement proposes for a record. -/
def relationRow (driver : Driver) (now : UtcTime) (r : Json) : Except Exn RelationRow := do
  let fromTicker ← r.index (text "from_ticker")
  let toTicker ← r.index (text "to_ticker")
  let kind ← r.index (text "kind")
  let weight ← (← r.index (text "weight")).toFloat
  let directed ← r.dictGet (text "directed")
  let evidence ← r.dictGet (text "evidence")
  let fromTicker ← driver.text fromTicker
  let toTicker ← driver.text toTicker
  let kind ← driver.text kind
  let evidence ← driver.text (evidence.getD .null)
  let fromTicker ← notNull fromTicker
  let toTicker ← notNull toTicker
  let kind ← notNull kind
  return {
    fromTicker := fromTicker
    toTicker := toTicker
    kind := kind
    weight := weight
    directed := (directed.getD (.bool false)).truthy
    evidence := evidence
    updatedAt := now }

/-! ### The transaction -/

/-- The statement numbered `i` reaches the database, unless the connection is lost there. -/
def reach (lost : Nat → Option Exn) (i : Nat) : Except Exn Unit :=
  match lost i with
  | some e => .error e
  | none => .ok ()

/-- One call of `upsert_seed`, with what becomes of the connection. -/
structure SeedRun where
  securities : Json
  relations : Json
  now : UtcTime
  lost : Nat → Option Exn

namespace SeedRun

variable (driver : Driver) (run : SeedRun)

/-- One turn of the first loop. -/
def upsertSecurity (table : SecurityTable × Nat) (s : Json) :
    Except Exn (SecurityTable × Nat) := do
  let row ← securityRow driver run.now s
  reach run.lost table.2
  let row ← admitRow SecurityRow.Admitted row
  return (table.1.upsert row, table.2 + 1)

/-- One turn of the second loop; `before` statements came before it. -/
def upsertRelation (before : Nat) (table : RelationTable × Nat) (r : Json) :
    Except Exn (RelationTable × Nat) := do
  let row ← relationRow driver run.now r
  reach run.lost (before + table.2)
  let row ← admitRow RelationRow.Admitted row
  return (table.1.upsert row, table.2 + 1)

/-- The block inside the transaction. -/
def block (db : SecuritiesDb) : Except Exn (SecuritiesDb × Nat × Nat) := do
  let (master, nSec) ← (← run.securities.iterate).foldlM (run.upsertSecurity driver) (db.master, 0)
  let (relation, nRel) ← (← run.relations.iterate).foldlM (run.upsertRelation driver nSec)
    (db.relation, 0)
  return (⟨master, relation⟩, nSec, nRel)

/-- `upsert_seed`: the tables after it, and what it returns or raises. -/
def upsertSeed (db : SecuritiesDb) : SecuritiesDb × Except Exn (Nat × Nat) :=
  transaction (run.block driver) db

end SeedRun

/-! ### What a run writes -/

def SecurityTable.upsertAll (table : SecurityTable) (rows : List AdmittedSecurity) :
    SecurityTable := rows.foldl SecurityTable.upsert table

def RelationTable.upsertAll (table : RelationTable) (rows : List AdmittedRelation) :
    RelationTable := rows.foldl RelationTable.upsert table

theorem SecurityTable.upsertAll_toKeyedTable (table : SecurityTable)
    (rows : List AdmittedSecurity) :
    (table.upsertAll rows).toKeyedTable =
      table.toKeyedTable.upsertAll (rows.map Subtype.val) := by
  induction rows generalizing table with
  | nil => rfl
  | cons row rows ih => exact ih (table.upsert row)

theorem RelationTable.upsertAll_toKeyedTable (table : RelationTable)
    (rows : List AdmittedRelation) :
    (table.upsertAll rows).toKeyedTable =
      table.toKeyedTable.upsertAll (rows.map Subtype.val) := by
  induction rows generalizing table with
  | nil => rfl
  | cons row rows ih => exact ih (table.upsert row)

def SecuritiesDb.write (db : SecuritiesDb) (rows : List AdmittedSecurity)
    (edges : List AdmittedRelation) : SecuritiesDb :=
  ⟨db.master.upsertAll rows, db.relation.upsertAll edges⟩

namespace SeedRun

variable (driver : Driver) (run : SeedRun)

/-- The row of a record that goes in as statement `i`. -/
def readSecurity (i : Nat) (s : Json) : Except Exn AdmittedSecurity := do
  let row ← securityRow driver run.now s
  reach run.lost i
  admitRow SecurityRow.Admitted row

def readRelation (i : Nat) (r : Json) : Except Exn AdmittedRelation := do
  let row ← relationRow driver run.now r
  reach run.lost i
  admitRow RelationRow.Admitted row

/-- The rows that the run writes, where nothing fails. -/
def written : Except Exn (List AdmittedSecurity × List AdmittedRelation) := do
  let rows ← (← run.securities.iterate).zipIdx.mapM fun p => run.readSecurity driver p.2 p.1
  let edges ← (← run.relations.iterate).zipIdx.mapM fun p =>
    run.readRelation driver (rows.length + p.2) p.1
  return (rows, edges)

theorem upsertSecurity_eq (table : SecurityTable × Nat) (s : Json) :
    run.upsertSecurity driver table s =
      run.readSecurity driver table.2 s >>= fun row => .ok (table.1.upsert row, table.2 + 1) := by
  simp only [upsertSecurity, readSecurity, bind_assoc]
  rfl

theorem upsertRelation_eq (before : Nat) (table : RelationTable × Nat) (r : Json) :
    run.upsertRelation driver before table r =
      run.readRelation driver (before + table.2) r >>= fun row =>
        .ok (table.1.upsert row, table.2 + 1) := by
  simp only [upsertRelation, readRelation, bind_assoc]
  rfl

theorem block_eq (db : SecuritiesDb) :
    run.block driver db = (fun w => (db.write w.1 w.2, w.1.length, w.2.length)) <$>
      run.written driver := by
  have hfirst (items : List Json) : items.foldlM (run.upsertSecurity driver) (db.master, 0) =
      (fun rows => (db.master.upsertAll rows, 0 + rows.length)) <$>
        items.zipIdx.mapM fun p => run.readSecurity driver p.2 p.1 := by
    rw [funext fun t => funext fun s => run.upsertSecurity_eq driver t s]
    exact foldlM_numbered (run.readSecurity driver) _ items db.master 0
  have hsecond (before : Nat) (items : List Json) :
      items.foldlM (run.upsertRelation driver before) (db.relation, 0) =
        (fun edges => (db.relation.upsertAll edges, 0 + edges.length)) <$>
          items.zipIdx.mapM fun p => run.readRelation driver (before + p.2) p.1 := by
    rw [funext fun t => funext fun s => run.upsertRelation_eq driver before t s]
    exact foldlM_numbered (fun i => run.readRelation driver (before + i)) _ items db.relation 0
  rw [block, written]
  cases run.securities.iterate with
  | error e => rfl
  | ok items =>
      rw [ok_bind, ok_bind, hfirst]
      cases items.zipIdx.mapM fun p => run.readSecurity driver p.2 p.1 with
      | error e => rfl
      | ok rows =>
          cases run.relations.iterate with
          | error e => rfl
          | ok ends =>
              change (ends.foldlM (run.upsertRelation driver (0 + rows.length)) (db.relation, 0) >>=
                fun t => Except.ok ((⟨db.master.upsertAll rows, t.1⟩ : SecuritiesDb),
                  0 + rows.length, t.2)) = _
              rw [Nat.zero_add, hsecond]
              change _ = _ <$> ((ends.zipIdx.mapM fun p =>
                run.readRelation driver (rows.length + p.2) p.1) >>= fun edges =>
                  Except.ok (rows, edges))
              cases ends.zipIdx.mapM fun p => run.readRelation driver (rows.length + p.2) p.1 with
              | error e => rfl
              | ok edges =>
                  change Except.ok (_, rows.length, 0 + edges.length) = _
                  rw [Nat.zero_add]
                  rfl

/-- Either every record is written, or nothing is. -/
theorem upsertSeed_eq (db : SecuritiesDb) :
    run.upsertSeed driver db =
      match run.written driver with
      | .ok (rows, edges) => (db.write rows edges, .ok (rows.length, edges.length))
      | .error e => (db, .error e) := by
  rw [upsertSeed, transaction, block_eq]
  cases run.written driver with
  | ok w => rfl
  | error e => rfl

/-- Every record has a row that its table admits, and the connection holds to the end. -/
structure Writes (items ends : List Json) (rows : List SecurityRow) (edges : List RelationRow) :
    Prop where
  securities : run.securities.iterate = .ok items
  relations : run.relations.iterate = .ok ends
  security_rows : List.Forall₂
    (fun s row => securityRow driver run.now s = .ok row ∧ row.Admitted) items rows
  relation_rows : List.Forall₂
    (fun r row => relationRow driver run.now r = .ok row ∧ row.Admitted) ends edges
  connected : ∀ i < items.length + ends.length, run.lost i = none

theorem reach_eq_ok_iff {lost : Nat → Option Exn} {i : Nat} {u : Unit} :
    reach lost i = .ok u ↔ lost i = none := by
  rw [reach]
  cases lost i with
  | none => exact iff_of_true rfl rfl
  | some e => exact iff_of_false (by simp) (by simp)

theorem admitRow_eq_ok_iff {ρ : Type} {P : ρ → Prop} [DecidablePred P] {row : ρ}
    {admitted : { row // P row }} : admitRow P row = .ok admitted ↔ row = admitted.val := by
  rw [admitRow]
  split
  · rename_i h
    rw [Except.ok.injEq, Subtype.ext_iff]
  · rename_i h
    refine iff_of_false (by simp [raise]) ?_
    rintro rfl
    exact h admitted.property

theorem readSecurity_eq_ok_iff (i : Nat) (s : Json) (row : AdmittedSecurity) :
    run.readSecurity driver i s = .ok row ↔
      securityRow driver run.now s = .ok row.val ∧ run.lost i = none := by
  simp only [readSecurity, bind_eq_ok_iff, reach_eq_ok_iff, admitRow_eq_ok_iff]
  constructor
  · rintro ⟨_, hrow, -, hreach, rfl⟩
    exact ⟨hrow, hreach⟩
  · rintro ⟨hrow, hreach⟩
    exact ⟨_, hrow, (), hreach, rfl⟩

theorem readRelation_eq_ok_iff (i : Nat) (r : Json) (row : AdmittedRelation) :
    run.readRelation driver i r = .ok row ↔
      relationRow driver run.now r = .ok row.val ∧ run.lost i = none := by
  simp only [readRelation, bind_eq_ok_iff, reach_eq_ok_iff, admitRow_eq_ok_iff]
  constructor
  · rintro ⟨_, hrow, -, hreach, rfl⟩
    exact ⟨hrow, hreach⟩
  · rintro ⟨hrow, hreach⟩
    exact ⟨_, hrow, (), hreach, rfl⟩

/-- A numbered traversal of readings, told without the numbers. -/
theorem mapM_zipIdx_eq_ok_iff {α ρ : Type} {P : ρ → Prop} {f : Nat → α → Except Exn { b // P b }}
    {g : α → Except Exn ρ} {Q : Nat → Prop}
    (hf : ∀ i a b, f i a = .ok b ↔ g a = .ok b.val ∧ Q i) (xs : List α) (n : Nat)
    (ys : List ρ) :
    (∃ bs, (xs.zipIdx n).mapM (fun p => f p.2 p.1) = .ok bs ∧ bs.map Subtype.val = ys) ↔
      List.Forall₂ (fun a b => g a = .ok b ∧ P b) xs ys ∧ ∀ i < xs.length, Q (n + i) := by
  induction xs generalizing n ys with
  | nil =>
      simp only [List.zipIdx_nil, List.mapM_nil, List.forall₂_nil_left_iff]
      constructor
      · rintro ⟨bs, h, rfl⟩
        cases h
        exact ⟨rfl, fun i hi => absurd hi (Nat.not_lt_zero i)⟩
      · rintro ⟨rfl, -⟩
        exact ⟨[], rfl, rfl⟩
  | cons x xs ih =>
      simp only [List.zipIdx_cons, List.mapM_cons, bind_eq_ok_iff, List.forall₂_cons_left_iff, hf]
      constructor
      · rintro ⟨bs, ⟨b, ⟨hb, hn⟩, rest, hrest, hbs⟩, rfl⟩
        cases hbs
        obtain ⟨hall, hlost⟩ := (ih (n + 1) _).mp ⟨rest, hrest, rfl⟩
        refine ⟨⟨b.val, _, ⟨hb, b.property⟩, hall, rfl⟩, ?_⟩
        intro i hi
        cases i with
        | zero => exact hn
        | succ i =>
            have hnext := hlost i (Nat.lt_of_succ_lt_succ hi)
            rwa [Nat.add_right_comm] at hnext
      · rintro ⟨⟨b, rest, ⟨hb, hP⟩, hall, rfl⟩, hlost⟩
        have hnext : ∀ i < xs.length, Q (n + 1 + i) := by
          intro i hi
          rw [Nat.add_right_comm]
          exact hlost (i + 1) (Nat.succ_lt_succ hi)
        obtain ⟨bs, hbs, hvals⟩ := (ih (n + 1) rest).mpr ⟨hall, hnext⟩
        refine ⟨⟨b, hP⟩ :: bs, ⟨⟨b, hP⟩, ⟨hb, hlost 0 (Nat.succ_pos _)⟩, bs, hbs, rfl⟩, ?_⟩
        rw [List.map_cons, hvals]

theorem written_ok_iff (rows : List SecurityRow) (edges : List RelationRow) :
    (∃ w, run.written driver = .ok w ∧ w.1.map Subtype.val = rows ∧ w.2.map Subtype.val = edges) ↔
      ∃ items ends, run.Writes driver items ends rows edges := by
  have hfirst := @mapM_zipIdx_eq_ok_iff _ _ _ _ _ (fun i => run.lost i = none)
    (run.readSecurity_eq_ok_iff driver)
  have hsecond (before : Nat) := @mapM_zipIdx_eq_ok_iff _ _ _
    (fun i => run.readRelation driver (before + i)) _ (fun i => run.lost (before + i) = none)
    (fun i => run.readRelation_eq_ok_iff driver (before + i))
  constructor
  · rintro ⟨w, hw, rfl, rfl⟩
    simp only [written, bind_eq_ok_iff] at hw
    obtain ⟨items, hitems, rows, hrows, ends, hends, edges, hedges, hw⟩ := hw
    cases hw
    obtain ⟨hall, hlost⟩ := (hfirst items 0 _).mp ⟨rows, hrows, rfl⟩
    obtain ⟨hall', hlost'⟩ := (hsecond rows.length ends 0 _).mp ⟨edges, hedges, rfl⟩
    have hlength : items.length = rows.length := by
      rw [hall.length_eq, List.length_map]
    refine ⟨items, ends, hitems, hends, hall, hall', ?_⟩
    intro i hi
    by_cases hsmall : i < items.length
    · simpa using hlost i hsmall
    · have hlate := hlost' (i - rows.length) (by omega)
      rwa [Nat.zero_add, ← hlength, Nat.add_sub_cancel' (Nat.le_of_not_lt hsmall)] at hlate
  · rintro ⟨items, ends, h⟩
    obtain ⟨rs, hrs, hvals⟩ := (hfirst items 0 rows).mpr ⟨h.security_rows, fun i hi => by
      rw [Nat.zero_add]
      exact h.connected i (by omega)⟩
    have hlength : items.length = rs.length := by
      rw [h.security_rows.length_eq, ← hvals, List.length_map]
    obtain ⟨es, hes, hvals'⟩ := (hsecond rs.length ends 0 edges).mpr ⟨h.relation_rows,
      fun i hi => by
        rw [Nat.zero_add]
        exact h.connected _ (by omega)⟩
    refine ⟨(rs, es), ?_, hvals, hvals'⟩
    simp only [written, bind_eq_ok_iff]
    exact ⟨items, h.securities, rs, hrs, ends, h.relations, es, hes, rfl⟩

end SeedRun

end NexusBackend
