import NexusBackend.Library.KeyedTable
import NexusBackend.Persistence.Batches
import NexusBackend.Persistence.PriceColumn

/-!
The table `market_tick` behind `TickRepository.insert_batch`, and what it holds of the
records that the gateway parsed once the tick loop has inserted what it received. The
database is up throughout. The limit on the size of an entry of the primary key is left out.
-/
namespace NexusBackend

open Python Transition

/-! ### The table -/

/-- A row, with what its columns demand; time and price are counted in microseconds and
ten-thousandths. -/
structure MarketRow where
  ts : Int
  symbol : Text
  price : Int
  volume : Int
  side : TickSide
  symbol_chars : ∀ c ∈ symbol, c ≠ 0 ∧ Utf8.IsScalar c
  price_digits : |price| < 10 ^ 18
  volume_bits : -2 ^ 63 ≤ volume ∧ volume < 2 ^ 63
deriving DecidableEq

/-- `PRIMARY KEY (symbol, ts)`. -/
def MarketRow.key (row : MarketRow) : Text × Int := (row.symbol, row.ts)

abbrev MarketTable := KeyedTable MarketRow.key

/-- The instant as `TIMESTAMPTZ`; a time without an offset counts as UTC. -/
def columnTs (d : DateTime) : Int :=
  (d.date.ordinal - 1) * dayMicros + d.time.micros - (d.offset.getD .utc).micros

/-- The row of a tick, unless a column does not take its value. -/
def marketRow? (tick : Tick) : Option MarketRow :=
  if h : (∀ c ∈ tick.symbol, c ≠ 0 ∧ Utf8.IsScalar c) ∧ FitsColumn tick.price.toRat ∧
      -2 ^ 63 ≤ tick.volume ∧ tick.volume < 2 ^ 63 then
    some ⟨columnTs tick.ts, tick.symbol, tenThousandths tick.price.toRat, tick.volume, tick.side,
      h.1, h.2.1, h.2.2⟩
  else none

/-- `insert_batch`: the table after it, and the count it returns. One row that a column
refuses costs the batch. -/
def insertBatch (table : MarketTable) (ticks : List Tick) : MarketTable × Nat :=
  if ticks = [] then (table, 0)
  else if ∀ tick ∈ ticks, (marketRow? tick).isSome = true then
    (table.insertAll (ticks.filterMap marketRow?), ticks.length)
  else (table, 0)

/-- The table after the inserts of a run, where each has returned what the database gives; of
a cancelled one nothing is known. -/
def marketTick : MarketTable → List LoopEvent → Option MarketTable
  | table, [] => some table
  | table, .inserted batch k :: tr =>
      let (next, count) := insertBatch table batch
      if k = count then marketTick next tr else none
  | _, .cancelled _ :: _ => none
  | table, .received _ :: tr | table, .handed _ :: tr => marketTick table tr

theorem length_insertBatch_le (table : MarketTable) (batch : List Tick) :
    (insertBatch table batch).1.rows.length ≤
      table.rows.length + (batch.filterMap marketRow?).length := by
  rw [insertBatch]
  split
  · exact Nat.le_add_right _ _
  · split
    · exact table.length_insertAll_le _
    · exact Nat.le_add_right _ _

theorem insertBatch_of_all (table : MarketTable) {batch : List Tick}
    (h : ∀ tick ∈ batch, (marketRow? tick).isSome = true) :
    (insertBatch table batch).1 = table.insertAll (batch.filterMap marketRow?) := by
  rw [insertBatch]
  split
  · rename_i hnil
    rw [hnil]
    rfl
  · rfl

section
variable {table final : MarketTable} {tr : List LoopEvent}

theorem marketTick_inserted {batch : List Tick} {k : Nat}
    (h : marketTick table (.inserted batch k :: tr) = some final) :
    marketTick (insertBatch table batch).1 tr = some final := by
  rw [marketTick, Option.ite_none_right_eq_some] at h
  exact h.2

theorem marketTick_not_cancelled (h : marketTick table tr = some final) :
    ∀ e ∈ tr, ¬ e.isCancelled = true := by
  induction tr generalizing table with
  | nil => exact fun _ he => (nomatch he)
  | cons e tr ih =>
      rw [List.forall_mem_cons]
      cases e with
      | inserted batch k => exact ⟨Bool.false_ne_true, ih (marketTick_inserted h)⟩
      | received tick => exact ⟨Bool.false_ne_true, ih h⟩
      | handed batch => exact ⟨Bool.false_ne_true, ih h⟩
      | cancelled batch => cases h

/-- The table grows by no more rows than were inserted. -/
theorem length_marketTick_le (h : marketTick table tr = some final) :
    final.rows.length ≤ table.rows.length + ((completedOf tr).filterMap marketRow?).length := by
  induction tr generalizing table with
  | nil =>
      cases h
      exact Nat.le_add_right _ _
  | cons e tr ih =>
      rw [completedOf_cons, List.filterMap_append, List.length_append]
      cases e with
      | inserted batch k =>
          have hone := length_insertBatch_le table batch
          have hrest := ih (marketTick_inserted h)
          rw [LoopEvent.completed]
          omega
      | received tick => simpa only [LoopEvent.completed, List.filterMap_nil, List.length_nil,
          Nat.zero_add] using ih h
      | handed batch => simpa only [LoopEvent.completed, List.filterMap_nil, List.length_nil,
          Nat.zero_add] using ih h
      | cancelled batch => cases h

/-- Where every tick has a row, the batches make no difference. -/
theorem marketTick_of_all (h : marketTick table tr = some final)
    (hall : ∀ tick ∈ completedOf tr, (marketRow? tick).isSome = true) :
    final = table.insertAll ((completedOf tr).filterMap marketRow?) := by
  induction tr generalizing table with
  | nil =>
      cases h
      rfl
  | cons e tr ih =>
      rw [completedOf_cons, List.forall_mem_append] at hall
      rw [completedOf_cons, List.filterMap_append, KeyedTable.insertAll_append]
      cases e with
      | inserted batch k =>
          have hbatch : (insertBatch table batch).1 =
              table.insertAll (batch.filterMap marketRow?) := insertBatch_of_all table hall.1
          rw [ih (marketTick_inserted h) hall.2, hbatch]
          rfl
      | received tick => exact ih h hall.2
      | handed batch => exact ih h hall.2
      | cancelled batch => cases h

end

/-! ### Messages -/

/-- The messages that the tick loop reads. -/
def messagesOf (ls : List LoopLabel) : List Worker.Message := ls.filterMap LoopLabel.message?

/-- The tick that the handler takes from a message. -/
def heard (py : Worker.Interpreter) (msg : Worker.Message) : List Tick :=
  match Worker.readTick py msg with
  | .ok tick => tick.toList
  | .error _ => []

/-- What is heard of messages that are read one by one. -/
theorem heard_of_read {α : Type} {py : Worker.Interpreter} {f : α → Option Tick} {xs : List α}
    {msgs : List Worker.Message}
    (h : List.Forall₂ (fun x msg => Worker.readTick py msg = .ok (f x)) xs msgs) :
    msgs.flatMap (heard py) = xs.filterMap f := by
  induction h with
  | nil => rfl
  | cons hmsg _ ih =>
      rename_i x msg xs msgs _
      rw [List.flatMap_cons, ih, heard, hmsg, List.filterMap_cons]
      cases f x with
      | none => rfl
      | some tick => rfl

/-- What is published of the ticks is heard as what arrives of them. -/
theorem heard_published {py : Worker.Interpreter} (hloads : 1 ≤ py.loadsLimit) {ticks : List Tick}
    {msgs : List Worker.Message}
    (h : List.Forall₂ (fun tick msg => tickPayload py tick = .ok msg.raw) ticks msgs)
    (hparsed : ∀ tick ∈ ticks, Parsed tick) :
    msgs.flatMap (heard py) = ticks.filterMap arrived := by
  induction h with
  | nil => rfl
  | cons hmsg _ ih =>
      rename_i tick msg ticks msgs _
      rw [List.forall_mem_cons] at hparsed
      have hread := readTick_published hloads hparsed.1 hmsg
      rw [List.flatMap_cons, ih hparsed.2, heard, hread, List.filterMap_cons]
      cases arrived tick <;> rfl

/-! ### What the loop receives -/

namespace LoopState

variable {cfg : WorkerConfig}

theorem afterRead_receives (s : LoopState cfg) (now : ℚ) (isMessage : Bool) :
    receivedOf (s.afterRead now isMessage).2 = [] := by
  rw [LoopState.afterRead]
  split <;> rfl

theorem drain_receives (s : LoopState cfg) : receivedOf s.drain.2 = [] := by
  simp only [LoopState.drain]
  split <;> rfl

theorem receive_receives (py : Worker.Interpreter) (s : LoopState cfg) (now : ℚ)
    (msg : Worker.Message) : receivedOf (s.receive py now msg).2 = heard py msg := by
  rw [LoopState.receive, heard]
  cases Worker.readTick py msg with
  | error e => rfl
  | ok tick =>
      cases tick with
      | none => exact afterRead_receives s now true
      | some tick =>
          change tick :: receivedOf (LoopState.afterRead _ now true).2 = [tick]
          rw [afterRead_receives]

/-- A step receives what it hears in the message it reads. -/
theorem step_receives {py : Worker.Interpreter} {s : LoopState cfg} {l : LoopLabel}
    {next : LoopState cfg × List LoopEvent} (hstep : s.step py l = some next) :
    receivedOf next.2 = (l.message?.map (heard py)).getD [] := by
  cases step_turn hstep with
  | move _ _ silent => rw [silent]; rfl
  | receive now msg => exact receive_receives py s now msg
  | idle now => exact afterRead_receives s now false
  | drain silent => rw [silent]; exact drain_receives s
  | settle => rfl
  | cancel => rfl

end LoopState

theorem receivedOf_run {cfg : WorkerConfig} {py : Worker.Interpreter} {s t : LoopState cfg}
    {ls : List LoopLabel} {tr : List LoopEvent} (hr : (tickLoop cfg py).run s ls = some (t, tr)) :
    receivedOf tr = (messagesOf ls).flatMap (heard py) := by
  induction ls generalizing s tr with
  | nil =>
      cases hr
      rfl
  | cons l ls ih =>
      obtain ⟨s', es, fs, hstep, hrest, rfl⟩ := (Machine.run_cons _ s l ls).mp hr
      rw [receivedOf_append, LoopState.step_receives hstep, ih hrest, messagesOf,
        messagesOf, List.filterMap_cons]
      cases l.message? <;> rfl

/-! ### What the table holds -/

def Tick.key (tick : Tick) : Text × Int := (tick.symbol, columnTs tick.ts)

/-- The row holds the tick, with the price that the float of the wire leaves of it. -/
structure StoresTick (tick : Tick) (row : MarketRow) : Prop where
  symbol : row.symbol = tick.symbol
  ts : row.ts = columnTs tick.ts
  price : row.price = tenThousandths (wirePrice tick).toRat
  volume : row.volume = tick.volume
  side : row.side = tick.side

def storedVolume (rows : List MarketRow) (symbol : Text) : Int :=
  ((rows.filter fun row => row.symbol = symbol).map MarketRow.volume).sum

def parsedVolume (ticks : List Tick) (symbol : Text) : Int :=
  ((ticks.filter fun tick => tick.symbol = symbol).map Tick.volume).sum

/-- Every tick has a row of its own, there is no other row, and the volumes add up. -/
def NoTradeLost (table : MarketTable) (ticks : List Tick) : Prop :=
  (∃ rows : List MarketRow, rows.Perm table.rows ∧ List.Forall₂ StoresTick ticks rows) ∧
    ∀ symbol, storedVolume table.rows symbol = parsedVolume ticks symbol

/-- The columns take what is left of the tick. -/
structure Fits (tick : Tick) : Prop where
  symbol : 0 ∉ tick.symbol
  price : tick.price.toRat < priceLimit
  volume : -2 ^ 63 ≤ tick.volume ∧ tick.volume < 2 ^ 63

/-- The row of a tick behind the message and the worker. -/
def storedRow? (tick : Tick) : Option MarketRow := (arrived tick).bind marketRow?

theorem storedRow?_stores {tick : Tick} {row : MarketRow} (h : storedRow? tick = some row) :
    StoresTick tick row := by
  obtain ⟨found, hfound, hrow⟩ := Option.bind_eq_some_iff.mp h
  rw [arrived, Option.dite_none_right_eq_some] at hfound
  obtain ⟨hfinite, hfound⟩ := hfound
  rw [marketRow?, Option.dite_none_right_eq_some] at hrow
  obtain ⟨hcolumns, hrow⟩ := hrow
  obtain rfl := Option.some.inj hfound
  obtain rfl := Option.some.inj hrow
  exact ⟨rfl, rfl, rfl, rfl, rfl⟩

theorem storedRow?_isSome_iff {tick : Tick} (h : Parsed tick) :
    (storedRow? tick).isSome = true ↔ Fits tick := by
  have hprice := price_fits_iff h.price
  constructor
  · intro hsome
    obtain ⟨row, hrow⟩ := Option.isSome_iff_exists.mp hsome
    obtain ⟨found, hfound, hrow⟩ := Option.bind_eq_some_iff.mp hrow
    rw [arrived, Option.dite_none_right_eq_some] at hfound
    obtain ⟨hfinite, hfound⟩ := hfound
    rw [marketRow?, Option.dite_none_right_eq_some] at hrow
    obtain ⟨⟨hsymbol, hfits, hvolume⟩, -⟩ := hrow
    obtain rfl := Option.some.inj hfound
    exact ⟨fun hzero => (hsymbol 0 hzero).1 rfl, hprice.mp ⟨hfinite, hfits⟩, hvolume⟩
  · intro hfits
    obtain ⟨hfinite, hcolumn⟩ := hprice.mpr hfits.price
    have hsymbol : ∀ c ∈ tick.symbol, c ≠ 0 ∧ Utf8.IsScalar c := by
      intro c hc
      refine ⟨?_, h.symbol c hc⟩
      intro hzero
      rw [hzero] at hc
      exact hfits.symbol hc
    rw [storedRow?, arrived, dif_pos hfinite, Option.bind_some, marketRow?,
      dif_pos ⟨hsymbol, hcolumn, hfits.volume⟩]
    rfl

theorem forall₂_storedRow {ticks : List Tick}
    (h : ∀ tick ∈ ticks, (storedRow? tick).isSome = true) :
    List.Forall₂ StoresTick ticks (ticks.filterMap storedRow?) := by
  induction ticks with
  | nil => exact .nil
  | cons tick ticks ih =>
      rw [List.forall_mem_cons] at h
      obtain ⟨row, hrow⟩ := Option.isSome_iff_exists.mp h.1
      rw [List.filterMap_cons_some hrow]
      exact .cons (storedRow?_stores hrow) (ih h.2)

section
variable {ticks : List Tick} {rows : List MarketRow}

theorem keys_of_stores (h : List.Forall₂ StoresTick ticks rows) :
    ticks.map Tick.key = rows.map MarketRow.key := by
  induction h with
  | nil => rfl
  | cons hrow _ ih => rw [List.map_cons, List.map_cons, ih, Tick.key, MarketRow.key, hrow.symbol,
      hrow.ts]

theorem volume_of_stores (h : List.Forall₂ StoresTick ticks rows) (symbol : Text) :
    storedVolume rows symbol = parsedVolume ticks symbol := by
  induction h with
  | nil => rfl
  | cons hrow _ ih =>
      rename_i tick row ticks rows _
      rw [storedVolume, parsedVolume] at ih ⊢
      rw [List.filter_cons, List.filter_cons, hrow.symbol]
      split
      · rw [List.map_cons, List.map_cons, List.sum_cons, List.sum_cons, ih, hrow.volume]
      · exact ih

end

section
variable {cfg : WorkerConfig} {py : Worker.Interpreter} {records : List TradeRecord}
  {ls : List LoopLabel} {s : LoopState cfg} {tr : List LoopEvent} {table : MarketTable}

/-- With nothing left in the buffer and no insert under way, what was inserted is what
arrived of the ticks parsed. -/
theorem completedOf_published (hloads : 1 ≤ py.loadsLimit)
    (hread : List.Forall₂ (fun tick msg => tickPayload py tick = .ok msg.raw)
      (parsedTicks records) (messagesOf ls))
    (hr : (tickLoop cfg py).run .initial ls = some (s, tr)) (hquiet : s.phase.quiet = true)
    (hbuffer : s.worker.buffer.items = []) (hdb : marketTick .empty tr = some table) :
    completedOf tr = (parsedTicks records).filterMap arrived := by
  have horder := (tickLoop_passes hr).1.in_order
  rw [LoopPhase.inFlight_of_quiet hquiet, hbuffer, List.append_nil, List.append_nil] at horder
  rw [completedOf_eq_endedOf (marketTick_not_cancelled hdb), horder, receivedOf_run hr]
  exact heard_published hloads hread fun tick => parsedTicks_parsed

/-- No trade is lost exactly where the columns take every tick and no two ticks of a symbol
fall into one second. -/
theorem no_trade_lost_iff (hloads : 1 ≤ py.loadsLimit)
    (hread : List.Forall₂ (fun tick msg => tickPayload py tick = .ok msg.raw)
      (parsedTicks records) (messagesOf ls))
    (hr : (tickLoop cfg py).run .initial ls = some (s, tr)) (hquiet : s.phase.quiet = true)
    (hbuffer : s.worker.buffer.items = []) (hdb : marketTick .empty tr = some table) :
    NoTradeLost table (parsedTicks records) ↔
      (∀ tick ∈ parsedTicks records, Fits tick) ∧ ((parsedTicks records).map Tick.key).Nodup := by
  have hcompleted := completedOf_published hloads hread hr hquiet hbuffer hdb
  have hrows : (completedOf tr).filterMap marketRow? =
      (parsedTicks records).filterMap storedRow? := by
    rw [hcompleted, List.filterMap_filterMap]
    rfl
  have hfits : (∀ tick ∈ parsedTicks records, Fits tick) ↔
      ∀ tick ∈ parsedTicks records, (storedRow? tick).isSome = true :=
    forall₂_congr fun tick h => (storedRow?_isSome_iff (parsedTicks_parsed h)).symm
  rw [hfits]
  constructor
  · intro hlost
    obtain ⟨rows, hperm, hstores⟩ := hlost.1
    constructor
    · -- as many rows as ticks, so none was refused
      have hle := length_marketTick_le hdb
      have hlen := hstores.length_eq.trans hperm.length_eq
      have hall := List.length_filterMap_le storedRow? (parsedTicks records)
      rw [hrows] at hle
      refine List.filterMap_length_eq_length.mp ?_
      change table.rows.length ≤ 0 + _ at hle
      omega
    · rw [keys_of_stores hstores]
      exact (hperm.map _).nodup_iff.mpr table.keys_nodup
  · intro ⟨hall, hkeys⟩
    have hstores := forall₂_storedRow hall
    have hmarket : ∀ tick ∈ completedOf tr, (marketRow? tick).isSome = true := by
      intro found hfound
      rw [hcompleted] at hfound
      obtain ⟨tick, htick, harrived⟩ := List.mem_filterMap.mp hfound
      have hsome := hall tick htick
      rwa [storedRow?, harrived, Option.bind_some] at hsome
    have htable : table.rows = (parsedTicks records).filterMap storedRow? := by
      rw [marketTick_of_all hdb hmarket, hrows]
      refine KeyedTable.insertAll_rows ?_
      change ((List.filterMap _ _).map MarketRow.key).Nodup
      rw [← keys_of_stores hstores]
      exact hkeys
    rw [NoTradeLost, htable]
    exact ⟨⟨_, .refl _, hstores⟩, volume_of_stores hstores⟩

end

/-! ### Two trades in one second, and in two -/

instance (tick : Tick) : Decidable (Fits tick) :=
  decidable_of_iff (0 ∉ tick.symbol ∧ tick.price.toRat < priceLimit ∧
    -2 ^ 63 ≤ tick.volume ∧ tick.volume < 2 ^ 63)
    ⟨fun h => ⟨h.1, h.2.1, h.2.2⟩, fun h => ⟨h.symbol, h.price, h.volume⟩⟩

def openingClock : KisClient.ClockReading where
  kstDate := sampleDate
  utcNow := ⟨sampleDate, .midnight⟩
  kstDate_range := KisClient.noonReading.kstDate_range

def tradeFields (hms volume : Text) : List Text :=
  (List.replicate KisClient.h0stcnt0Fields []).mapIdx fun i s =>
    if i = KisClient.fldSymbol then text "005930"
    else if i = KisClient.fldTimeHms then hms
    else if i = KisClient.fldPrice then text "79000"
    else if i = KisClient.fldTickVol then volume
    else s

def oneSecond : List TradeRecord :=
  [⟨openingClock, tradeFields (text "090000") (text "10"), by decide +kernel⟩,
    ⟨openingClock, tradeFields (text "090000") (text "20"), by decide +kernel⟩]

def twoSeconds : List TradeRecord :=
  [⟨openingClock, tradeFields (text "090000") (text "10"), by decide +kernel⟩,
    ⟨openingClock, tradeFields (text "090001") (text "20"), by decide +kernel⟩]

/-- Each tick is read and inserted on its own. -/
def insertEach (ticks : List Tick) : List LoopLabel :=
  .start :: .subscribed (some 0) ::
    ticks.flatMap fun tick => [.read 1 (some (.str (tickToWire tick).dumpsText)), .inserted 1]

theorem insertEach_published (ticks : List Tick) :
    List.Forall₂ (fun tick msg => tickPayload Worker.samplePython tick = .ok msg.raw) ticks
      (messagesOf (insertEach ticks)) := by
  change List.Forall₂ _ ticks (messagesOf (ticks.flatMap _))
  induction ticks with
  | nil => exact .nil
  | cons tick ticks ih =>
      have hlimit : (tickToWire tick).depth ≤ Worker.samplePython.dumpsLimit :=
        (depth_tickToWire_le tick).trans (by decide)
      have hpayload : tickPayload Worker.samplePython tick = .ok (tickToWire tick).dumpsText := by
        rw [tickPayload, Json.dumps, if_pos hlimit]
      exact .cons hpayload ih

/-- Where the run ends with everything inserted, the volume stored. -/
def marketOutcome (records : List TradeRecord) : Option Int :=
  ((tickLoop eagerConfig Worker.samplePython).run .initial
    (insertEach (parsedTicks records))).bind fun (s, tr) =>
      if s.phase.quiet = true ∧ s.worker.buffer.items = [] then
        (marketTick .empty tr).map fun table => storedVolume table.rows (text "005930")
      else none

theorem run_of_marketOutcome {records : List TradeRecord} {volume : Int}
    (h : marketOutcome records = some volume) : ∃ s tr table,
      (tickLoop eagerConfig Worker.samplePython).run .initial
          (insertEach (parsedTicks records)) = some (s, tr) ∧
        (s.phase.quiet = true ∧ s.worker.buffer.items = []) ∧
        marketTick .empty tr = some table ∧
        storedVolume table.rows (text "005930") = volume := by
  obtain ⟨⟨s, tr⟩, hr, hout⟩ := Option.bind_eq_some_iff.mp h
  obtain ⟨hend, hout⟩ := Option.ite_none_right_eq_some.mp hout
  obtain ⟨table, hdb, hvolume⟩ := Option.map_eq_some_iff.mp hout
  exact ⟨s, tr, table, hr, hend, hdb, hvolume⟩

/-- Of two trades of a symbol in one second, ten shares and twenty, the second is dropped. -/
theorem same_second_trade_lost : ∃ s tr table,
    (tickLoop eagerConfig Worker.samplePython).run .initial
        (insertEach (parsedTicks oneSecond)) = some (s, tr) ∧
      (s.phase.quiet = true ∧ s.worker.buffer.items = []) ∧
      marketTick .empty tr = some table ∧ ¬ NoTradeLost table (parsedTicks oneSecond) := by
  obtain ⟨s, tr, table, hr, hend, hdb, hvolume⟩ :=
    run_of_marketOutcome (show marketOutcome oneSecond = some 10 by decide +kernel)
  have hparsed : parsedVolume (parsedTicks oneSecond) (text "005930") = 30 := by decide +kernel
  refine ⟨s, tr, table, hr, hend, hdb, fun hlost => ?_⟩
  have hsum := hlost.2 (text "005930")
  rw [hvolume, hparsed] at hsum
  exact absurd hsum (by decide)

theorem separate_seconds_kept : ∃ s tr table,
    (tickLoop eagerConfig Worker.samplePython).run .initial
        (insertEach (parsedTicks twoSeconds)) = some (s, tr) ∧
      marketTick .empty tr = some table ∧ NoTradeLost table (parsedTicks twoSeconds) := by
  obtain ⟨s, tr, table, hr, ⟨hquiet, hbuffer⟩, hdb, -⟩ :=
    run_of_marketOutcome (show marketOutcome twoSeconds = some 30 by decide +kernel)
  have hfits : ∀ tick ∈ parsedTicks twoSeconds, Fits tick := by decide +kernel
  have hkeys : ((parsedTicks twoSeconds).map Tick.key).Nodup := by decide +kernel
  exact ⟨s, tr, table, hr, hdb, (no_trade_lost_iff (by decide) (insertEach_published _) hr hquiet
    hbuffer hdb).mpr ⟨hfits, hkeys⟩⟩

end NexusBackend
