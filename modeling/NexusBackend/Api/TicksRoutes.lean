import NexusBackend.Api.Router
import NexusBackend.Persistence.MarketReads

/-!
`GET /ticks/recent`, `/ticks/tape`, `/ticks/snapshot` and `/ticks/volume`.

Limits and windows are what the validation of the framework lets through; a window is counted in
microseconds. The four answers are made of the same histories.
-/
namespace NexusBackend

open Python

abbrev TickLimit : Type := { n : Int // 1 ≤ n ∧ n ≤ 500 }

abbrev WindowMinutes : Type := { n : Int // 1 ≤ n ∧ n ≤ 1440 }

/-- The symbols of a request, at most fifty. -/
def symbolParts (symbols : Text) : List Text :=
  let parts := ((splitAll 44 symbols).map strip).filter (· ≠ [])
  if 50 < parts.length then parts.take 50 else parts

/-- `datetime.now(timezone.utc) - timedelta(minutes=window_minutes)`. -/
def windowStart (now : UtcTime) (minutes : WindowMinutes) : Except Exn Int :=
  let start := columnTs now.toDateTime - minutes.val * 60000000
  if start < 0 then raise .overflowError else .ok start

structure TicksRecent where
  symbol : Text
  ticks : List ShownTick

structure TicksSnapshots where
  requested : List Text
  snapshots : List ShownEntry

structure VolumeWindow where
  windowMinutes : WindowMinutes
  buckets : List VolumeBucket

section
variable {κ : Type} [LinearOrder κ] (db : MarketDatabase κ) (table : MarketTable)

/-- `ticks_recent`. -/
def ticksRecent (symbol : Text) (limit : TickLimit) : Except Exn TicksRecent := do
  let rows ← db.listRecentTicks table symbol limit.val
  return ⟨symbol, rows⟩

/-- `ticks_tape`. -/
def ticksTape (symbols : Text) (limit : TickLimit) : Except Exn (List ShownEntry) := do
  let parts := symbolParts symbols
  if parts = [] then
    return []
  db.listRecentTape table parts limit.val

/-- `ticks_snapshot`. -/
def ticksSnapshot (symbols : Text) : Except Exn TicksSnapshots := do
  let parts := symbolParts symbols
  if parts = [] then
    return ⟨[], []⟩
  let rows ← db.snapshotPerSymbol table parts
  return ⟨parts, rows⟩

/-- `ticks_volume`. -/
def ticksVolume (now : UtcTime) (symbols : Text) (minutes : WindowMinutes) :
    Except Exn VolumeWindow := do
  let parts := symbolParts symbols
  if parts = [] then
    return ⟨minutes, []⟩
  let since ← windowStart now minutes
  let rows ← db.aggregateVolume table parts since
  return ⟨minutes, rows⟩

/-! ### What they show of a symbol -/

theorem ticksRecent_eq (symbol : Text) (limit : TickLimit) :
    ticksRecent db table symbol limit =
      .ok ⟨symbol, (if db.Answers [symbol] then (history table symbol).take limit.val.toNat
        else []).map MarketRow.shown⟩ := by
  rw [ticksRecent, db.listRecentTicks_eq]
  rfl

theorem ticksTape_eq (symbols : Text) (limit : TickLimit) :
    ticksTape db table symbols limit =
      .ok ((if db.Answers (symbolParts symbols) then
        (db.byTime.arrange (table.rows.filter fun row => row.symbol ∈ symbolParts symbols)).take
          limit.val.toNat else []).map MarketRow.entry) := by
  rw [ticksTape]
  by_cases hempty : symbolParts symbols = []
  · have hnone : (table.rows.filter fun row => row.symbol ∈ symbolParts symbols) = [] := by
      simp [hempty]
    have hrows : db.byTime.arrange [] = [] := List.eq_nil_of_length_eq_zero
      (db.byTime.length_arrange [])
    rw [if_pos hempty, hnone, hrows, List.take_nil, ite_self]
    rfl
  · rw [if_neg hempty, db.listRecentTape_eq table hempty limit.property.1]

theorem ticksSnapshot_eq (symbols : Text) :
    ticksSnapshot db table symbols =
      .ok ⟨symbolParts symbols, (if db.Answers (symbolParts symbols) then
        OrderBy.distinctOn MarketRow.symbol
          (db.bySymbol.arrange (table.rows.filter fun row => row.symbol ∈ symbolParts symbols))
        else []).map MarketRow.entry⟩ := by
  rw [ticksSnapshot]
  by_cases hempty : symbolParts symbols = []
  · have hnone : (table.rows.filter fun row => row.symbol ∈ symbolParts symbols) = [] := by
      simp [hempty]
    have hrows : db.bySymbol.arrange [] = [] := List.eq_nil_of_length_eq_zero
      (db.bySymbol.length_arrange [])
    rw [if_pos hempty, hnone, hrows, hempty]
    change _ = Except.ok (⟨[], (if _ then [] else []).map _⟩ : TicksSnapshots)
    rw [ite_self]
    rfl
  · rw [if_neg hempty, db.snapshotPerSymbol_eq table hempty]
    rfl

/-- Of the entries shown, those of a symbol. -/
theorem filter_entries (rows : List MarketRow) (symbol : Text) :
    (rows.map MarketRow.entry).filter (fun e => e.symbol = symbol) =
      (rows.filter fun row => row.symbol = symbol).map MarketRow.entry := by
  rw [List.filter_map]
  rfl

theorem entry_of_symbol {rows : List MarketRow} {symbol : Text}
    (h : ∀ row ∈ rows, row.symbol = symbol) :
    rows.map MarketRow.entry = (rows.map MarketRow.shown).map fun tick => ⟨tick, symbol⟩ := by
  rw [List.map_map]
  refine List.map_congr_left ?_
  intro row hrow
  rw [MarketRow.entry, h row hrow]
  rfl

theorem answers_one {symbols : List Text} (h : db.Answers symbols) {symbol : Text}
    (hsymbol : symbol ∈ symbols) : db.Answers [symbol] :=
  ⟨h.1, fun _ hs => List.mem_singleton.mp hs ▸ h.2 symbol hsymbol⟩

/-- Snapshot and tape show nothing, or of each symbol asked for what its recent ticks show: the
snapshot the newest of them, the tape a first stretch, and all of them where it is not full. -/
theorem ticks_agree (symbols : Text) (limit : TickLimit) :
    ∃ snapshots entries,
      ticksSnapshot db table symbols = .ok ⟨symbolParts symbols, snapshots⟩ ∧
      ticksTape db table symbols limit = .ok entries ∧
      (¬ db.Answers (symbolParts symbols) → snapshots = [] ∧ entries = []) ∧
      (db.Answers (symbolParts symbols) →
        (∀ e ∈ snapshots ++ entries, e.symbol ∈ symbolParts symbols) ∧
        (entries.Pairwise fun a b => b.ts ≤ a.ts) ∧ entries.length ≤ limit.val ∧
        ∀ symbol ∈ symbolParts symbols, ∃ ticks,
          ticksRecent db table symbol limit = .ok ⟨symbol, ticks⟩ ∧
          snapshots.filter (fun e => e.symbol = symbol) =
            (ticks.head?.map fun tick => ⟨tick, symbol⟩).toList ∧
          entries.filter (fun e => e.symbol = symbol) <+: ticks.map (fun tick => ⟨tick, symbol⟩) ∧
          (entries.length < limit.val → entries.filter (fun e => e.symbol = symbol) =
            ticks.map fun tick => ⟨tick, symbol⟩)) := by
  rw [ticksSnapshot_eq, ticksTape_eq]
  refine ⟨_, _, rfl, rfl, ?_, ?_⟩
  · intro hanswers
    rw [if_neg hanswers, if_neg hanswers]
    exact ⟨rfl, rfl⟩
  intro hanswers
  rw [if_pos hanswers, if_pos hanswers]
  refine ⟨?_, ?_, ?_, ?_⟩
  · intro e he
    rw [← List.map_append] at he
    obtain ⟨row, hrow, rfl⟩ := List.mem_map.mp he
    have hselected : row ∈ table.rows.filter fun row => row.symbol ∈ symbolParts symbols := by
      rcases List.mem_append.mp hrow with hrow | hrow
      · exact db.bySymbol.mem_arrange.mp
          ((OrderBy.distinctOn_sublist MarketRow.symbol _).subset hrow)
      · exact db.byTime.mem_arrange.mp (List.mem_of_mem_take hrow)
    exact of_decide_eq_true (List.mem_filter.mp hselected).2
  · rw [List.pairwise_map]
    exact (db.byTime.sorted _).sublist (List.take_sublist _ _)
  · rw [List.length_map, ← Int.toNat_of_nonneg (le_trans (by decide) limit.property.1)]
    exact Int.ofNat_le.mpr (List.length_take_le _ _)
  · intro symbol hsymbol
    have hone := answers_one db hanswers hsymbol
    have hlatest := db.snapshot_head table hsymbol
    have htape := db.tape_prefix table hsymbol limit.val.toNat
    have hof : ∀ row ∈ (history table symbol).take limit.val.toNat, row.symbol = symbol :=
      fun row hrow => (mem_history.mp (List.mem_of_mem_take hrow)).2
    refine ⟨_, by rw [ticksRecent_eq, if_pos hone], ?_, ?_, ?_⟩
    · rw [filter_entries, hlatest, List.head?_map, List.head?_take, if_neg (by
        have hpos := limit.property.1
        omega), Option.map_map]
      cases hhead : (history table symbol).head? with
      | none => rfl
      | some row =>
          have hrow := (mem_history.mp (List.mem_of_mem_head? hhead)).2
          rw [Option.toList_some, List.map_singleton, Option.map_some, Option.toList_some,
            MarketRow.entry, hrow]
          rfl
    · rw [filter_entries, ← entry_of_symbol hof]
      exact htape.map MarketRow.entry
    · intro hlength
      rw [List.length_map] at hlength
      rw [filter_entries, ← entry_of_symbol hof, db.tape_complete table hsymbol (by omega)]

/-- The volumes come in the order asked for, each the sum over what the history of the symbol has
since the start of the window, or there are none: the database does not answer, or one sum is no
`BIGINT`. Over the symbols asked for they make up all the ticks of the window. -/
theorem ticksVolume_answers (now : UtcTime) (symbols : Text) (minutes : WindowMinutes) :
    (symbolParts symbols = [] ∧ ticksVolume db table now symbols minutes = .ok ⟨minutes, []⟩) ∨
      (∃ e, windowStart now minutes = .error e ∧
        ticksVolume db table now symbols minutes = .error e) ∨
      ∃ since, windowStart now minutes = .ok since ∧
        ticksVolume db table now symbols minutes = .ok ⟨minutes,
          if db.Answers (symbolParts symbols) ∧
              ∀ symbol ∈ symbolParts symbols, VolumeFits table since symbol then
            (symbolParts symbols).map (volumeSince table since) else []⟩ ∧
        (((symbolParts symbols).dedup.map fun symbol =>
            (volumeSince table since symbol).tickCount).sum =
          (windowRows table (symbolParts symbols) since).length) ∧
        ((symbolParts symbols).dedup.map fun symbol =>
            (volumeSince table since symbol).totalVolume).sum =
          ((windowRows table (symbolParts symbols) since).map MarketRow.volume).sum := by
  by_cases hempty : symbolParts symbols = []
  · exact .inl ⟨hempty, by rw [ticksVolume, if_pos hempty]; rfl⟩
  cases hstart : windowStart now minutes with
  | error e =>
      refine .inr (.inl ⟨e, rfl, ?_⟩)
      rw [ticksVolume, if_neg hempty, hstart]
      rfl
  | ok since =>
      refine .inr (.inr ⟨since, rfl, ?_, sum_tickCounts table since _,
        sum_totalVolumes table since _⟩)
      rw [ticksVolume, if_neg hempty, hstart, ok_bind, db.aggregateVolume_eq]
      rfl

end

/-- Ties, of which there are none in a history, stay as they are in the table. -/
def stableMarket : MarketDatabase Text where
  collate := id
  byTime := .stable _
  bySymbol := .stable _
  groups := .stable _
  lost := none

end NexusBackend
