import NexusBackend.Library.Grouping
import NexusBackend.Library.OrderBy
import NexusBackend.Library.Upserts
import NexusBackend.Persistence.Connection
import NexusBackend.Persistence.MarketTick
import Mathlib.Data.List.Sort
import Mathlib.Data.Prod.Lex

/-!
The readers of `market_tick` in `MarketRepository`: the recent ticks of one symbol, the tape of
several, the last tick of each, and their volumes.

All of them show nothing where the database fails. What they show of a symbol is a part of one
history, the rows of the symbol with the newest first, in which no two rows are of one instant.
-/
namespace NexusBackend

open Python

/-- `ORDER BY ts DESC`. -/
def MarketRow.newest (row : MarketRow) : Intᵒᵈ := OrderDual.toDual row.ts

/-- `ORDER BY symbol, ts DESC`. -/
def MarketRow.symbolThenNewest {κ : Type} (collate : Text → κ) (row : MarketRow) :
    κ ×ₗ Intᵒᵈ :=
  toLex (collate row.symbol, row.newest)

/-- How the database orders what it selects. -/
structure MarketDatabase (κ : Type) [LinearOrder κ] extends Connection where
  collate : Text → κ
  byTime : OrderBy MarketRow.newest
  bySymbol : OrderBy (MarketRow.symbolThenNewest collate)
  groups : OrderBy fun _ : Text × List MarketRow => ()

/-- A tick as it is shown; the price is a float now. -/
structure ShownTick where
  ts : Int
  price : Python.Float
  volume : Int
  side : TickSide

def MarketRow.shown (row : MarketRow) : ShownTick :=
  ⟨row.ts, .ofRat (row.price / 10000), row.volume, row.side⟩

/-- The same with the symbol. -/
structure ShownEntry extends ShownTick where
  symbol : Text

def MarketRow.entry (row : MarketRow) : ShownEntry := ⟨row.shown, row.symbol⟩

structure VolumeBucket where
  symbol : Text
  totalVolume : Int
  tickCount : Nat

namespace MarketDatabase

variable {κ : Type} [LinearOrder κ] (db : MarketDatabase κ) (table : MarketTable)

/-! ### The readers -/

/-- `list_recent_ticks`. -/
def listRecentTicks (symbol : Text) (limit : Int) : Except Exn (List ShownTick) := do
  if limit < 1 then
    return []
  let rows ← Connection.guarded (db.answer [symbol] (.ok
    ((db.byTime.arrange (table.rows.filter fun row => row.symbol = symbol)).take limit.toNat)))
  return rows.map MarketRow.shown

/-- `list_recent_tape`. -/
def listRecentTape (symbols : List Text) (limit : Int) : Except Exn (List ShownEntry) := do
  if symbols = [] ∨ limit < 1 then
    return []
  let rows ← Connection.guarded (db.answer symbols (.ok
    ((db.byTime.arrange (table.rows.filter fun row => row.symbol ∈ symbols)).take limit.toNat)))
  return rows.map MarketRow.entry

/-- `snapshot_per_symbol`. -/
def snapshotPerSymbol (symbols : List Text) : Except Exn (List ShownEntry) := do
  if symbols = [] then
    return []
  let rows ← Connection.guarded (db.answer symbols (.ok (OrderBy.distinctOn MarketRow.symbol
    (db.bySymbol.arrange (table.rows.filter fun row => row.symbol ∈ symbols)))))
  return rows.map MarketRow.entry

/-- `SUM(volume)::BIGINT` and `COUNT(*)` of a group. -/
def bucketRow (g : Text × List MarketRow) : Except Exn VolumeBucket :=
  let total := (g.2.map MarketRow.volume).sum
  if -2 ^ 63 ≤ total ∧ total < 2 ^ 63 then .ok ⟨g.1, total, g.2.length⟩ else raise postgresError

/-- `{r["symbol"]: r for r in rows}`. -/
def bucketsBySymbol (rows : List VolumeBucket) : List (Text × VolumeBucket) :=
  rows.foldl (fun out r => Json.setKey r.symbol r out) []

/-- `aggregate_volume`. -/
def aggregateVolume (symbols : List Text) (since : Int) : Except Exn (List VolumeBucket) := do
  if symbols = [] then
    return []
  let fetched ← tryExcept (some <$> db.answer symbols
    ((db.groups.arrange (Grouping.groups MarketRow.symbol
      (table.rows.filter fun row => row.symbol ∈ symbols ∧ since ≤ row.ts))).mapM bucketRow))
    Worker.databaseErrors fun _ => .ok none
  match fetched with
  | none => return []
  | some rows =>
      return symbols.map fun sym => (Json.get? (bucketsBySymbol rows) sym).getD ⟨sym, 0, 0⟩

end MarketDatabase

/-! ### The history of a symbol -/

/-- The rows of a symbol, the newest first. -/
def history (table : MarketTable) (symbol : Text) : List MarketRow :=
  Ranking.ascending MarketRow.newest (table.rows.filter fun row => row.symbol = symbol)

section
variable {table : MarketTable} {symbol : Text} {row : MarketRow}

theorem mem_history : row ∈ history table symbol ↔ row ∈ table.rows ∧ row.symbol = symbol := by
  rw [history, (Ranking.ascending_perm _ _).mem_iff, List.mem_filter, decide_eq_true_eq]

/-- Two rows of a symbol are of two instants. -/
theorem newest_injective (table : MarketTable) (symbol : Text) :
    ∀ a ∈ table.rows.filter (fun row => row.symbol = symbol),
      ∀ b ∈ table.rows.filter (fun row => row.symbol = symbol), a.newest = b.newest → a = b := by
  intro a ha b hb heq
  obtain ⟨ha, hsymbol⟩ := List.mem_filter.mp ha
  obtain ⟨hb, hsymbol'⟩ := List.mem_filter.mp hb
  have hts : a.ts = b.ts := OrderDual.toDual.injective heq
  have hkey : a.key = b.key := by
    rw [MarketRow.key, MarketRow.key, hts, of_decide_eq_true hsymbol, of_decide_eq_true hsymbol']
  exact List.inj_on_of_nodup_map table.keys_nodup ha hb hkey

theorem history_nodup (table : MarketTable) (symbol : Text) : (history table symbol).Nodup := by
  rw [history, (Ranking.ascending_perm _ _).nodup_iff]
  exact table.keys_nodup.of_map.filter _

theorem history_sorted (table : MarketTable) (symbol : Text) :
    (history table symbol).Pairwise fun a b => b.ts < a.ts := by
  have hperm := Ranking.ascending_perm MarketRow.newest
    (table.rows.filter fun row => row.symbol = symbol)
  have hsorted := Ranking.ascending_sorted MarketRow.newest
    (table.rows.filter fun row => row.symbol = symbol)
  refine (hsorted.and (history_nodup table symbol)).imp_of_mem ?_
  intro a b ha hb h
  refine lt_of_le_of_ne h.1 ?_
  intro hts
  exact h.2 (newest_injective table symbol a (hperm.mem_iff.mp ha) b (hperm.mem_iff.mp hb)
    (congrArg OrderDual.toDual hts.symm))

end

namespace MarketDatabase

variable {κ : Type} [LinearOrder κ] (db : MarketDatabase κ) (table : MarketTable)

theorem byTime_history (symbol : Text) :
    db.byTime.arrange (table.rows.filter fun row => row.symbol = symbol) =
      history table symbol :=
  db.byTime.arrange_eq (newest_injective table symbol)

/-- Of the rows of several symbols, those of one of them. -/
theorem filter_symbol {symbols : List Text} {symbol : Text} (h : symbol ∈ symbols) :
    (table.rows.filter fun row => row.symbol ∈ symbols).filter (fun row => row.symbol = symbol) =
      table.rows.filter fun row => row.symbol = symbol := by
  rw [List.filter_filter]
  refine List.filter_congr ?_
  intro row _
  by_cases hrow : row.symbol = symbol
  · simp [hrow, h]
  · simp [hrow]

/-- The tape shows a first stretch of the history of each symbol. -/
theorem tape_prefix {symbols : List Text} {symbol : Text} (h : symbol ∈ symbols) (n : Nat) :
    ((db.byTime.arrange (table.rows.filter fun row => row.symbol ∈ symbols)).take n).filter
        (fun row => row.symbol = symbol) <+: (history table symbol).take n := by
  have hinj := newest_injective table symbol
  rw [← filter_symbol table h] at hinj
  have hstart := db.byTime.filter_take_prefix n hinj
  rw [filter_symbol table h] at hstart
  refine List.prefix_take_iff.mpr ⟨hstart, ?_⟩
  exact (List.length_filter_le _ _).trans (List.length_take_le n _)

/-- A tape that is not full shows all of them. -/
theorem tape_complete {symbols : List Text} {symbol : Text} (h : symbol ∈ symbols) {n : Nat}
    (hlength : ((db.byTime.arrange
      (table.rows.filter fun row => row.symbol ∈ symbols)).take n).length < n) :
    ((db.byTime.arrange (table.rows.filter fun row => row.symbol ∈ symbols)).take n).filter
        (fun row => row.symbol = symbol) = (history table symbol).take n := by
  have hinj := newest_injective table symbol
  rw [← filter_symbol table h] at hinj
  have hall := db.byTime.filter_arrange hinj
  rw [filter_symbol table h] at hall
  rw [List.length_take] at hlength
  have hle : (db.byTime.arrange
      (table.rows.filter fun row => row.symbol ∈ symbols)).length ≤ n := by omega
  have hhistory : (history table symbol).length ≤ n := by
    rw [history, ← hall]
    exact (List.length_filter_le _ _).trans hle
  rw [List.take_of_length_le hle, List.take_of_length_le hhistory, hall, history]

/-- The snapshot shows the head of the history of each symbol. -/
theorem snapshot_head {symbols : List Text} {symbol : Text} (h : symbol ∈ symbols) :
    (OrderBy.distinctOn MarketRow.symbol
        (db.bySymbol.arrange (table.rows.filter fun row => row.symbol ∈ symbols))).filter
        (fun row => row.symbol = symbol) = (history table symbol).head?.toList := by
  have hsorted : ((db.bySymbol.arrange (table.rows.filter fun row => row.symbol ∈ symbols)).filter
      fun row => row.symbol = symbol).Pairwise fun a b => a.newest ≤ b.newest := by
    have hpairs := (db.bySymbol.sorted (table.rows.filter fun row => row.symbol ∈ symbols)).filter
      fun row => decide (row.symbol = symbol)
    refine hpairs.imp_of_mem ?_
    intro a b ha hb hle
    have hsymbol := (of_decide_eq_true (List.mem_filter.mp ha).2).trans
      (of_decide_eq_true (List.mem_filter.mp hb).2).symm
    rw [MarketRow.symbolThenNewest, MarketRow.symbolThenNewest, hsymbol, Prod.Lex.toLex_le_toLex]
      at hle
    rcases hle with hlt | ⟨-, hle⟩
    · exact absurd hlt (lt_irrefl _)
    · exact hle
  have hperm := (db.bySymbol.perm (table.rows.filter fun row => row.symbol ∈ symbols)).filter
    fun row => decide (row.symbol = symbol)
  rw [filter_symbol table h] at hperm
  rw [OrderBy.filter_distinctOn, history,
    Ranking.eq_ascending MarketRow.newest hperm hsorted (newest_injective table symbol)]

/-! ### What the readers return -/

theorem listRecentTicks_eq (symbol : Text) (limit : Int) :
    db.listRecentTicks table symbol limit =
      .ok ((if db.Answers [symbol] then (history table symbol).take limit.toNat else []).map
        MarketRow.shown) := by
  rw [listRecentTicks]
  split
  · rename_i hlimit
    rw [Int.toNat_of_nonpos (Int.lt_add_one_iff.mp hlimit), List.take_zero, ite_self]
    rfl
  · rw [db.guarded_answer, byTime_history]
    rfl

theorem listRecentTape_eq {symbols : List Text} (hsymbols : symbols ≠ []) {limit : Int}
    (hlimit : 1 ≤ limit) :
    db.listRecentTape table symbols limit =
      .ok ((if db.Answers symbols then
        (db.byTime.arrange (table.rows.filter fun row => row.symbol ∈ symbols)).take limit.toNat
        else []).map MarketRow.entry) := by
  rw [listRecentTape, if_neg (by
    rw [not_or, not_lt]
    exact ⟨hsymbols, hlimit⟩), db.guarded_answer]
  rfl

theorem snapshotPerSymbol_eq {symbols : List Text} (hsymbols : symbols ≠ []) :
    db.snapshotPerSymbol table symbols =
      .ok ((if db.Answers symbols then OrderBy.distinctOn MarketRow.symbol
        (db.bySymbol.arrange (table.rows.filter fun row => row.symbol ∈ symbols))
        else []).map MarketRow.entry) := by
  rw [snapshotPerSymbol, if_neg hsymbols, db.guarded_answer]
  rfl

end MarketDatabase

/-! ### Volumes -/

/-- Volume and number of the ticks of a symbol since an instant. -/
def volumeSince (table : MarketTable) (since : Int) (symbol : Text) : VolumeBucket :=
  let rows := (history table symbol).filter fun row => since ≤ row.ts
  ⟨symbol, (rows.map MarketRow.volume).sum, rows.length⟩

/-- The sum is a `BIGINT`. -/
def VolumeFits (table : MarketTable) (since : Int) (symbol : Text) : Prop :=
  -2 ^ 63 ≤ (volumeSince table since symbol).totalVolume ∧
    (volumeSince table since symbol).totalVolume < 2 ^ 63

instance (table : MarketTable) (since : Int) (symbol : Text) :
    Decidable (VolumeFits table since symbol) :=
  inferInstanceAs (Decidable (_ ∧ _))

/-- The rows that the volumes are made of. -/
def windowRows (table : MarketTable) (symbols : List Text) (since : Int) : List MarketRow :=
  table.rows.filter fun row => row.symbol ∈ symbols ∧ since ≤ row.ts

section
variable (table : MarketTable) {symbols : List Text} (since : Int) {symbol : Text}

theorem group_windowRows (h : symbol ∈ symbols) :
    (Grouping.group MarketRow.symbol symbol (windowRows table symbols since)).Perm
      ((history table symbol).filter fun row => since ≤ row.ts) := by
  have hperm := (Ranking.ascending_perm MarketRow.newest
    (table.rows.filter fun row => row.symbol = symbol)).filter fun row => decide (since ≤ row.ts)
  refine (List.Perm.of_eq ?_).trans hperm.symm
  rw [Grouping.group, windowRows, List.filter_filter, List.filter_filter]
  refine List.filter_congr ?_
  intro row _
  by_cases hrow : row.symbol = symbol
  · simp [hrow, h]
  · simp [hrow]

theorem bucketRow_group (h : symbol ∈ symbols) :
    MarketDatabase.bucketRow
        (symbol, Grouping.group MarketRow.symbol symbol (windowRows table symbols since)) =
      if VolumeFits table since symbol then .ok (volumeSince table since symbol)
      else raise postgresError := by
  have hperm := group_windowRows table since h
  simp only [MarketDatabase.bucketRow, (hperm.map MarketRow.volume).sum_eq, hperm.length_eq]
  rfl

/-- The ticks of the window, taken symbol by symbol. -/
theorem sum_windowRows {M : Type} [AddCommMonoid M] (f : MarketRow → M) (symbols : List Text) :
    (symbols.dedup.map fun symbol =>
        (((history table symbol).filter fun row => since ≤ row.ts).map f).sum).sum =
      ((windowRows table symbols since).map f).sum := by
  have hkeys : ∀ row ∈ windowRows table symbols since, row.symbol ∈ symbols.dedup :=
    fun row hrow => List.mem_dedup.mpr (of_decide_eq_true (List.mem_filter.mp hrow).2).1
  rw [← Grouping.sum_over_keys f symbols.nodup_dedup hkeys]
  refine congrArg List.sum (List.map_congr_left ?_)
  intro symbol hsymbol
  exact ((group_windowRows table since (List.mem_dedup.mp hsymbol)).map f).sum_eq.symm

theorem sum_tickCounts (symbols : List Text) :
    (symbols.dedup.map fun symbol => (volumeSince table since symbol).tickCount).sum =
      (windowRows table symbols since).length := by
  have hsum := sum_windowRows table since (fun _ => 1) symbols
  simp only [List.map_const', List.sum_replicate, smul_eq_mul, mul_one] at hsum
  exact hsum

theorem sum_totalVolumes (symbols : List Text) :
    (symbols.dedup.map fun symbol => (volumeSince table since symbol).totalVolume).sum =
      ((windowRows table symbols since).map MarketRow.volume).sum :=
  sum_windowRows table since MarketRow.volume symbols

/-- A symbol without ticks in the window. -/
theorem volumeSince_of_absent (h : symbol ∈ symbols)
    (habsent : symbol ∉ (windowRows table symbols since).map MarketRow.symbol) :
    volumeSince table since symbol = ⟨symbol, 0, 0⟩ := by
  have hempty : Grouping.group MarketRow.symbol symbol (windowRows table symbols since) = [] := by
    rw [List.eq_nil_iff_forall_not_mem]
    intro row hrow
    obtain ⟨hrow, hsymbol⟩ := Grouping.mem_group.mp hrow
    exact habsent (List.mem_map.mpr ⟨row, hrow, hsymbol⟩)
  have hperm := group_windowRows table since h
  rw [hempty] at hperm
  rw [volumeSince, hperm.nil_eq.symm]
  rfl

end

namespace MarketDatabase

theorem get?_bucketsBySymbol (rows : List VolumeBucket) (symbol : Text) :
    Json.get? (bucketsBySymbol rows) symbol =
      KeyedTable.lastUnder VolumeBucket.symbol symbol rows := by
  have hfold (out : List (Text × VolumeBucket)) :
      Json.get? (rows.foldl (fun out r => Json.setKey r.symbol r out) out) symbol =
        (KeyedTable.lastUnder VolumeBucket.symbol symbol rows).or (Json.get? out symbol) := by
    induction rows generalizing out with
    | nil => rfl
    | cons row rows ih =>
        rw [List.foldl_cons, ih, KeyedTable.lastUnder_cons, Json.get?_setKey, Option.or_assoc]
        by_cases hrow : row.symbol = symbol
        · simp [hrow]
        · simp [hrow]
  rw [bucketsBySymbol, hfold]
  exact Option.or_none

theorem keys_of_bucketRows {gs : List (Text × List MarketRow)} {rows : List VolumeBucket}
    (h : gs.mapM bucketRow = .ok rows) : rows.map VolumeBucket.symbol = gs.map Prod.fst := by
  have hall := mapM_eq_ok_iff.mp h
  clear h
  induction hall with
  | nil => rfl
  | cons hrow _ ih =>
      rw [bucketRow] at hrow
      split at hrow
      · cases hrow
        rw [List.map_cons, List.map_cons, ih]
      · cases hrow

variable {κ : Type} [LinearOrder κ] (db : MarketDatabase κ) (table : MarketTable)

/-- The groups, each with its bucket, or the error of the first sum that is too large. -/
theorem bucketRows_cases (symbols : List Text) (since : Int) :
    (∃ rows, (db.groups.arrange (Grouping.groups MarketRow.symbol
          (windowRows table symbols since))).mapM bucketRow = .ok rows ∧
        (∀ symbol ∈ symbols, VolumeFits table since symbol) ∧
        ∀ symbol ∈ symbols, (Json.get? (bucketsBySymbol rows) symbol).getD ⟨symbol, 0, 0⟩ =
          volumeSince table since symbol) ∨
      (db.groups.arrange (Grouping.groups MarketRow.symbol
          (windowRows table symbols since))).mapM bucketRow = raise postgresError ∧
        ¬ ∀ symbol ∈ symbols, VolumeFits table since symbol := by
  have hfetched {g : Text × List MarketRow} (hg : g ∈ db.groups.arrange (Grouping.groups
      MarketRow.symbol (windowRows table symbols since))) : g.1 ∈ symbols ∧
        bucketRow g = if VolumeFits table since g.1 then .ok (volumeSince table since g.1)
          else raise postgresError := by
    obtain ⟨hkey, hrows⟩ := Grouping.mem_groups.mp (db.groups.mem_arrange.mp hg)
    obtain ⟨row, hrow, hsymbol⟩ := List.mem_map.mp hkey
    have hmem : g.1 ∈ symbols := by
      rw [← hsymbol]
      exact (of_decide_eq_true (List.mem_filter.mp hrow).2).1
    refine ⟨hmem, ?_⟩
    rw [← bucketRow_group table since hmem, ← hrows]
  cases hrows : (db.groups.arrange (Grouping.groups MarketRow.symbol
      (windowRows table symbols since))).mapM bucketRow with
  | error e =>
      right
      obtain ⟨g, hg, herror⟩ := error_of_mapM hrows
      obtain ⟨hmem, hbucket⟩ := hfetched hg
      rw [herror] at hbucket
      split at hbucket
      · cases hbucket
      · rename_i hfits
        refine ⟨?_, fun h => hfits (h g.1 hmem)⟩
        cases hbucket
        rfl
  | ok rows =>
      left
      have hkeys := keys_of_bucketRows hrows
      have hnodup : (rows.map VolumeBucket.symbol).Nodup := by
        rw [hkeys, ((db.groups.perm _).map Prod.fst).nodup_iff]
        exact Grouping.keys_groups_nodup _
      have hsymbol (symbol : Text) (h : symbol ∈ symbols) : VolumeFits table since symbol ∧
          (Json.get? (bucketsBySymbol rows) symbol).getD ⟨symbol, 0, 0⟩ =
            volumeSince table since symbol := by
        rw [get?_bucketsBySymbol]
        by_cases hpresent : symbol ∈ (windowRows table symbols since).map MarketRow.symbol
        · have hgroup : (symbol, Grouping.group MarketRow.symbol symbol
              (windowRows table symbols since)) ∈ db.groups.arrange (Grouping.groups
                MarketRow.symbol (windowRows table symbols since)) :=
            db.groups.mem_arrange.mpr (Grouping.mem_groups.mpr ⟨hpresent, rfl⟩)
          obtain ⟨row, hrow, hbucket⟩ := of_mapM hrows hgroup
          rw [bucketRow_group table since h] at hbucket
          split at hbucket
          · rename_i hfits
            cases hbucket
            have hlast := KeyedTable.lastUnder_of_mem hnodup hrow
            exact ⟨hfits, congrArg (Option.getD · _) hlast⟩
          · cases hbucket
        · have hnone : KeyedTable.lastUnder VolumeBucket.symbol symbol rows = none := by
            rw [KeyedTable.lastUnder_eq_none_iff, hkeys,
              ((db.groups.perm _).map Prod.fst).mem_iff, Grouping.keys_groups, List.mem_dedup]
            exact hpresent
          rw [hnone, VolumeFits, volumeSince_of_absent table since h hpresent]
          have hzero : -2 ^ 63 ≤ (0 : Int) ∧ (0 : Int) < 2 ^ 63 := by decide
          exact ⟨hzero, rfl⟩
      exact ⟨rows, rfl, fun symbol h => (hsymbol symbol h).1, fun symbol h => (hsymbol symbol h).2⟩

/-- Each symbol has its volume, in the order asked for, or nothing is shown: the database does not
answer, or one of the sums is too large. -/
theorem aggregateVolume_eq (symbols : List Text) (since : Int) :
    db.aggregateVolume table symbols since =
      .ok (if db.Answers symbols ∧ ∀ symbol ∈ symbols, VolumeFits table since symbol then
        symbols.map (volumeSince table since) else []) := by
  rw [aggregateVolume]
  by_cases hempty : symbols = []
  · rw [if_pos hempty, hempty, List.map_nil, ite_self]
    rfl
  rw [if_neg hempty]
  change (do
    let fetched ← tryExcept (some <$> db.answer symbols ((db.groups.arrange (Grouping.groups
      MarketRow.symbol (windowRows table symbols since))).mapM bucketRow))
      Worker.databaseErrors fun _ => .ok none
    match fetched with
    | none => return []
    | some rows =>
        return symbols.map fun sym =>
          (Json.get? (bucketsBySymbol rows) sym).getD ⟨sym, 0, 0⟩ : Except Exn _) = _
  by_cases hanswers : db.Answers symbols
  · rw [Connection.answer, hanswers.1]
    dsimp only
    rw [if_pos hanswers.2]
    obtain ⟨rows, hrows, hfits, hbuckets⟩ | ⟨hrows, hfits⟩ :=
      db.bucketRows_cases table symbols since
    · rw [hrows, if_pos ⟨hanswers, hfits⟩]
      exact congrArg Except.ok (List.map_congr_left hbuckets)
    · rw [hrows, if_neg fun h => hfits h.2]
      rfl
  · rw [if_neg fun h => hanswers h.1, Connection.answer]
    cases hlost : db.lost with
    | some e =>
        change (tryExcept (.error e.val) _ _ >>= _) = _
        rw [tryExcept_caught _ e.property]
        rfl
    | none =>
        dsimp only
        rw [if_neg fun h => hanswers ⟨hlost, h⟩]
        rfl

end MarketDatabase

/-! ### After a run of the tick loop -/

/-- The rows of the batches that the database took. -/
def takenRows : List LoopEvent → List MarketRow
  | [] => []
  | .inserted batch _ :: tr =>
      (if ∀ tick ∈ batch, (marketRow? tick).isSome = true then batch.filterMap marketRow?
        else []) ++ takenRows tr
  | .received _ :: tr | .handed _ :: tr | .cancelled _ :: tr => takenRows tr

section
variable {table final : MarketTable} {tr : List LoopEvent}

theorem insertBatch_taken (table : MarketTable) (batch : List Tick) :
    (insertBatch table batch).1 = table.insertAll
      (if ∀ tick ∈ batch, (marketRow? tick).isSome = true then batch.filterMap marketRow?
        else []) := by
  split
  · rename_i hall
    exact insertBatch_of_all table hall
  · rename_i hall
    rw [insertBatch, if_neg hall, ite_self]
    rfl

theorem marketTick_taken (h : marketTick table tr = some final) :
    final = table.insertAll (takenRows tr) := by
  induction tr generalizing table with
  | nil =>
      cases h
      rfl
  | cons e tr ih =>
      cases e with
      | inserted batch k =>
          rw [ih (marketTick_inserted h), insertBatch_taken, takenRows,
            KeyedTable.insertAll_append]
      | received tick => exact ih h
      | handed batch => exact ih h
      | cancelled batch => cases h

/-- A row is in the history where it was the first of its instant. -/
theorem mem_history_after (h : marketTick table tr = some final) {symbol : Text} {row : MarketRow} :
    row ∈ history final symbol ↔ row.symbol = symbol ∧
      (table.rows ++ takenRows tr).find? (fun r => r.key = row.key) = some row := by
  rw [mem_history, marketTick_taken h, KeyedTable.mem_insertAll_iff, and_comm]

/-- Nothing is taken out of a history. -/
theorem history_sublist (h : marketTick table tr = some final) (symbol : Text) :
    (history table symbol).Sublist (history final symbol) := by
  have hsubset : history table symbol ⊆ history final symbol := by
    intro row hrow
    obtain ⟨hrow, hsymbol⟩ := mem_history.mp hrow
    refine (mem_history_after h).mpr ⟨hsymbol, ?_⟩
    rw [List.find?_append, (table.mem_rows_iff_find? row).mp hrow, Option.some_or]
  have hasymm : Std.Antisymm fun a b : MarketRow => b.ts < a.ts :=
    ⟨fun a b hab hba => absurd hab (lt_asymm hba)⟩
  have hsubperm := List.subperm_of_subset (history_nodup table symbol) hsubset
  exact List.sublist_of_subperm_of_pairwise hsubperm (history_sorted table symbol)
    (history_sorted final symbol)

end

end NexusBackend
