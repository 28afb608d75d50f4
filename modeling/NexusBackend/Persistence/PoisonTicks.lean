import NexusBackend.Persistence.MarketTick

/-!
Ticks that a column of `market_tick` refuses, and what they cost the ticks that arrive with
them: the insert of a batch is all or nothing.
-/
namespace NexusBackend

open Python Transition

/-! ### Batches without a refused tick -/

/-- The rows of a batch, none where a column refuses one of its ticks. -/
def batchRows (batch : List Tick) : List MarketRow :=
  if ∀ tick ∈ batch, (marketRow? tick).isSome = true then batch.filterMap marketRow? else []

/-- The rows of the batches without a refused tick, in the order of their inserts. -/
def acceptedRows (tr : List LoopEvent) : List MarketRow :=
  tr.flatMap fun e => batchRows e.completed

theorem insertBatch_eq (table : MarketTable) (batch : List Tick) :
    (insertBatch table batch).1 = table.insertAll (batchRows batch) := by
  rw [insertBatch, batchRows]
  split
  · rename_i hnil
    rw [hnil]
    rfl
  · split
    · rfl
    · rfl

section
variable {table final : MarketTable} {tr : List LoopEvent}

/-- The table holds what the batches without a refused tick brought. -/
theorem marketTick_eq (h : marketTick table tr = some final) :
    final = table.insertAll (acceptedRows tr) := by
  induction tr generalizing table with
  | nil =>
      cases h
      rfl
  | cons e tr ih =>
      rw [acceptedRows, List.flatMap_cons, KeyedTable.insertAll_append, ← acceptedRows]
      cases e with
      | inserted batch k =>
          rw [ih (marketTick_inserted h), insertBatch_eq]
          rfl
      | received tick => exact ih h
      | handed batch => exact ih h
      | cancelled batch => cases h

/-- The row of the tick is the first under its key, of those that the table held and those of
the batches without a refused tick. -/
def Sheltered (table : MarketTable) (tr : List LoopEvent) (tick : Tick) : Prop :=
  ∀ row, marketRow? tick = some row →
    (table.rows ++ acceptedRows tr).find? (fun r => r.key = row.key) = some row

def Stored (table : MarketTable) (tick : Tick) : Prop :=
  ∀ row, marketRow? tick = some row → row ∈ table.rows

theorem stored_iff_sheltered (h : marketTick table tr = some final) (tick : Tick) :
    Stored final tick ↔ Sheltered table tr tick := by
  rw [marketTick_eq h]
  exact forall₂_congr fun row _ => KeyedTable.mem_insertAll_iff table (acceptedRows tr) row

end

section
variable {cfg : WorkerConfig} {py : Worker.Interpreter} {ls : List LoopLabel} {s : LoopState cfg}
  {tr : List LoopEvent} {table final : MarketTable}

/-- With the database up, what is heard in the messages has been inserted, is being inserted or
is in the buffer; and of what has been inserted every tick that fits is stored exactly where it
is sheltered. -/
theorem fitting_ticks_stored_iff (hr : (tickLoop cfg py).run .initial ls = some (s, tr))
    (hdb : marketTick table tr = some final) :
    completedOf tr ++ (s.phase.inFlight ++ s.worker.buffer.items) =
        (messagesOf ls).flatMap (heard py) ∧
      ((∀ tick ∈ completedOf tr, Stored final tick) ↔
        ∀ tick ∈ completedOf tr, Sheltered table tr tick) := by
  constructor
  · rw [completedOf_eq_endedOf (marketTick_not_cancelled hdb), (tickLoop_passes hr).1.in_order,
      receivedOf_run hr]
  · exact forall₂_congr fun tick _ => stored_iff_sheltered hdb tick

end

/-! ### Batches that are not mixed -/

/-- The columns take all ticks of the batch or none. -/
def Unmixed (batch : List Tick) : Prop :=
  (∀ tick ∈ batch, (marketRow? tick).isSome = true) ∨ ∀ tick ∈ batch, marketRow? tick = none

theorem batchRows_of_unmixed {batch : List Tick} (h : Unmixed batch) :
    batchRows batch = batch.filterMap marketRow? := by
  rw [batchRows]
  split
  · rfl
  · rename_i hrefused
    obtain hall | hnone := h
    · exact absurd hall hrefused
    · exact (List.filterMap_eq_nil_iff.mpr hnone).symm

theorem acceptedRows_of_unmixed {tr : List LoopEvent} (h : ∀ e ∈ tr, Unmixed e.completed) :
    acceptedRows tr = (completedOf tr).filterMap marketRow? := by
  induction tr with
  | nil => rfl
  | cons e tr ih =>
      rw [List.forall_mem_cons] at h
      rw [acceptedRows, List.flatMap_cons, ← acceptedRows, ih h.2, batchRows_of_unmixed h.1,
        completedOf_cons, List.filterMap_append]

/-- Where no batch is mixed and no two ticks that fit share symbol and time, with each other or
with a row of the table, every tick that fits is stored. -/
theorem stored_of_unmixed {table final : MarketTable} {tr : List LoopEvent}
    (hdb : marketTick table tr = some final) (h : ∀ e ∈ tr, Unmixed e.completed)
    (hkeys : ((table.rows ++ (completedOf tr).filterMap marketRow?).map MarketRow.key).Nodup) :
    ∀ tick ∈ completedOf tr, Stored final tick := by
  intro tick htick row hrow
  rw [marketTick_eq hdb, acceptedRows_of_unmixed h, KeyedTable.insertAll_rows hkeys]
  exact List.mem_append_right _ (List.mem_filterMap.mpr ⟨tick, htick, hrow⟩)

/-! ### A poison tick in a batch of its own, and in another's -/

/-- A tick whose volume is beyond 64 bits. -/
def poisonMessage : Worker.Message :=
  .str (text ("\x7b\"symbol\": \"B\", \"ts\": \"2026-05-10\", \"price\": 1, " ++
    "\"volume\": 9223372036854775808\x7d"))

def sharedBatch : List LoopLabel :=
  [.start, .subscribed (some 0), .read 1 (some tickMessage), .read 1 (some poisonMessage),
    .inserted 0]

def ownBatches : List LoopLabel :=
  [.start, .subscribed (some 0), .read 1 (some poisonMessage), .inserted 0,
    .read 1 (some tickMessage), .inserted 1]

/-- The ticks that a run has inserted and whose columns take them, and the rows it leaves. -/
def poisonOutcome (cfg : WorkerConfig) (ls : List LoopLabel) :
    Option (List Tick × List MarketRow) :=
  ((tickLoop cfg Worker.samplePython).run .initial ls).bind fun (_, tr) =>
    (marketTick .empty tr).map fun table =>
      ((completedOf tr).filter fun tick => (marketRow? tick).isSome, table.rows)

theorem run_of_poisonOutcome {cfg : WorkerConfig} {ls : List LoopLabel} {n m : Nat}
    (h : (poisonOutcome cfg ls).map (fun out => (out.1.length, out.2.length)) = some (n, m)) :
    ∃ s tr table, (tickLoop cfg Worker.samplePython).run .initial ls = some (s, tr) ∧
      marketTick .empty tr = some table ∧
        ((completedOf tr).filter fun tick => (marketRow? tick).isSome).length = n ∧
          table.rows.length = m := by
  obtain ⟨out, hout, hlengths⟩ := Option.map_eq_some_iff.mp h
  obtain ⟨⟨s, tr⟩, hr, hout⟩ := Option.bind_eq_some_iff.mp hout
  obtain ⟨table, hdb, rfl⟩ := Option.map_eq_some_iff.mp hout
  obtain ⟨hn, hm⟩ := Prod.mk.inj hlengths
  exact ⟨s, tr, table, hr, hdb, hn, hm⟩

/-- The tick that fits is lost with the one that shares its batch. -/
theorem shared_batch_lost : ∃ s tr table,
    (tickLoop lazyConfig Worker.samplePython).run .initial sharedBatch = some (s, tr) ∧
      marketTick .empty tr = some table ∧ ¬ ∀ tick ∈ completedOf tr, Stored table tick := by
  obtain ⟨s, tr, table, hr, hdb, hfits, hrows⟩ :=
    run_of_poisonOutcome (show (poisonOutcome lazyConfig sharedBatch).map
      (fun out => (out.1.length, out.2.length)) = some (1, 0) by decide +kernel)
  refine ⟨s, tr, table, hr, hdb, fun hstored => ?_⟩
  obtain ⟨tick, htick⟩ := List.exists_mem_of_length_pos (hfits ▸ Nat.one_pos)
  obtain ⟨hmem, hsome⟩ := List.mem_filter.mp htick
  obtain ⟨row, hrow⟩ := Option.isSome_iff_exists.mp hsome
  have hheld := hstored tick hmem row hrow
  rw [List.eq_nil_of_length_eq_zero hrows] at hheld
  cases hheld

theorem own_batches_stored : ∃ s tr table,
    (tickLoop eagerConfig Worker.samplePython).run .initial ownBatches = some (s, tr) ∧
      marketTick .empty tr = some table ∧ ((∀ tick ∈ completedOf tr, Stored table tick) ↔
        ∀ tick ∈ completedOf tr, Sheltered .empty tr tick) := by
  obtain ⟨s, tr, table, hr, hdb, -, -⟩ :=
    run_of_poisonOutcome (show (poisonOutcome eagerConfig ownBatches).map
      (fun out => (out.1.length, out.2.length)) = some (1, 1) by decide +kernel)
  exact ⟨s, tr, table, hr, hdb, (fitting_ticks_stored_iff hr hdb).2⟩

end NexusBackend
