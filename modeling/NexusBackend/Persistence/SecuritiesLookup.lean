import NexusBackend.Library.Upserts
import NexusBackend.Persistence.RelationsQuery

/-!
`SecuritiesRepository.get_security` and `get_by_ticker_batch`: one row by its ticker, and a
dictionary of the rows of many tickers. The rows of the batch come in any order.
-/
namespace NexusBackend

open Python KeyedTable

namespace SearchDatabase

variable {κ : Type} (db : SearchDatabase κ) (table : SecurityTable)

/-- `... WHERE ticker = $1`, the first row of it. -/
def fetchTicker (ticker : Text) : Except Exn (Option SecurityRow) :=
  if Storable ticker then .ok (table.rows.find? fun row => row.ticker = ticker)
  else raise postgresError

/-- `get_security`. -/
def getSecurity (ticker : Text) : Except Exn (Option SecurityModel) := do
  if ticker = [] then
    return none
  match ← tryExcept (fetchTicker table ticker) Worker.databaseErrors fun _ => .ok none with
  | none => return none
  | some row => return some (← db.rowToSecurity row)

/-- `... WHERE ticker = ANY($1::TEXT[])`. -/
def fetchTickers (order : OrderBy fun _ : SecurityRow => ()) (tickers : List Text) :
    Except Exn (List SecurityRow) :=
  if ∀ s ∈ tickers, Storable s then
    .ok (order.arrange (table.rows.filter fun row => row.ticker ∈ tickers))
  else raise postgresError

/-- One turn of the loop that fills the dictionary. -/
def addSecurity (out : List (Text × SecurityModel)) (row : SecurityRow) :
    Except Exn (List (Text × SecurityModel)) := do
  let sec ← db.rowToSecurity row
  return Json.setKey sec.ticker sec out

/-- `get_by_ticker_batch`: the dictionary, as pairs. -/
def getByTickerBatch (order : OrderBy fun _ : SecurityRow => ()) (tickers : List Text) :
    Except Exn (List (Text × SecurityModel)) := do
  if tickers = [] then
    return []
  match ← tryExcept (some <$> fetchTickers table order tickers) Worker.databaseErrors
      fun _ => .ok none with
  | none => return []
  | some rows => rows.foldlM db.addSecurity []

/-- What is shown of the row of a ticker, where the table has one. -/
def known (ticker : Text) : Option SecurityModel :=
  (table.held ticker).bind fun row => (db.rowToSecurity row).toOption

theorem rowToSecurity_ticker {row : SecurityRow} {sec : SecurityModel}
    (h : db.rowToSecurity row = .ok sec) : sec.ticker = row.ticker := by
  rw [rowToSecurity] at h
  split at h
  · cases h
  · cases h
    rfl

variable {table}

theorem toOption_of_ok {row : SecurityRow} {sec : SecurityModel}
    (h : db.rowToSecurity row = .ok sec) : (db.rowToSecurity row).toOption = some sec := by
  rw [h]
  rfl

theorem known_of_mem {row : SecurityRow} {sec : SecurityModel} (hrow : row ∈ table.rows)
    (h : db.rowToSecurity row = .ok sec) : db.known table row.ticker = some sec := by
  rw [known, table.held_eq_some_iff.mpr ⟨hrow, rfl⟩]
  exact db.toOption_of_ok h

theorem known_eq_some_iff {ticker : Text} {sec : SecurityModel} :
    db.known table ticker = some sec ↔
      ∃ row ∈ table.rows, row.ticker = ticker ∧ db.rowToSecurity row = .ok sec := by
  constructor
  · intro h
    obtain ⟨row, hheld, hsec⟩ := Option.bind_eq_some_iff.mp h
    obtain ⟨hrow, hticker⟩ := table.held_eq_some_iff.mp hheld
    obtain ⟨sec', hok⟩ := db.rowToSecurity_ok hrow
    rw [db.toOption_of_ok hok] at hsec
    cases hsec
    exact ⟨row, hrow, hticker, hok⟩
  · intro h
    obtain ⟨row, hrow, rfl, hok⟩ := h
    exact db.known_of_mem hrow hok

variable (table)

theorem getSecurity_eq (ticker : Text) :
    db.getSecurity table ticker =
      .ok (if ticker ≠ [] ∧ Storable ticker then db.known table ticker else none) := by
  rw [getSecurity]
  by_cases hempty : ticker = []
  · rw [if_pos hempty, if_neg fun h => h.1 hempty]
    rfl
  rw [if_neg hempty]
  by_cases hstorable : Storable ticker
  · rw [if_pos ⟨hempty, hstorable⟩, fetchTicker, if_pos hstorable, known]
    have hheld : table.held ticker = table.rows.find? fun row => row.ticker = ticker := rfl
    rw [hheld]
    cases hfind : table.rows.find? fun row => row.ticker = ticker with
    | none => rfl
    | some row =>
        obtain ⟨sec, hsec⟩ := db.rowToSecurity_ok (List.mem_of_find?_eq_some hfind)
        change (do return some (← db.rowToSecurity row)) =
          Except.ok ((db.rowToSecurity row).toOption)
        rw [hsec]
        rfl
  · rw [if_neg fun h => hstorable h.2, fetchTicker, if_neg hstorable]
    rfl

theorem getSecurity_of_mem {row : SecurityRow} {sec : SecurityModel} (hrow : row ∈ table.rows)
    (hne : row.ticker ≠ []) (h : db.rowToSecurity row = .ok sec) :
    db.getSecurity table row.ticker = .ok (some sec) := by
  have hstorable := table.storable row hrow row.ticker List.mem_cons_self
  rw [getSecurity_eq, if_pos ⟨hne, hstorable⟩, db.known_of_mem hrow h]

/-- The loop gives each ticker what is shown of the last row that has it. -/
theorem foldlM_addSecurity {rows : List SecurityRow} (hrows : ∀ row ∈ rows, row ∈ table.rows)
    (out : List (Text × SecurityModel)) :
    ∃ dict, rows.foldlM db.addSecurity out = .ok dict ∧ ∀ k, Json.get? dict k =
      ((lastUnder SecurityRow.ticker k rows).bind fun row => (db.rowToSecurity row).toOption).or
        (Json.get? out k) := by
  induction rows generalizing out with
  | nil => exact ⟨out, rfl, fun k => rfl⟩
  | cons row rows ih =>
      rw [List.forall_mem_cons] at hrows
      obtain ⟨sec, hsec⟩ := db.rowToSecurity_ok hrows.1
      have hadd : db.addSecurity out row = .ok (Json.setKey sec.ticker sec out) := by
        rw [addSecurity, hsec]
        rfl
      obtain ⟨dict, hdict, hget⟩ := ih hrows.2 (Json.setKey sec.ticker sec out)
      refine ⟨dict, by rw [List.foldlM_cons, hadd, ok_bind, hdict], ?_⟩
      intro k
      rw [hget, lastUnder_cons, Json.get?_setKey, db.rowToSecurity_ticker hsec]
      cases hlast : lastUnder SecurityRow.ticker k rows with
      | some last =>
          obtain ⟨hmem, -⟩ := mem_of_lastUnder hlast
          obtain ⟨shown, hshown⟩ := db.rowToSecurity_ok (hrows.2 last hmem)
          simp [hshown, Except.toOption]
      | none =>
          by_cases hk : row.ticker = k
          · simp [hk, hsec, Except.toOption]
          · simp [hk]

/-- The dictionary has each ticker that was asked for and that the table has, unless one of them
cannot be sent. -/
theorem getByTickerBatch_eq (order : OrderBy fun _ : SecurityRow => ()) (tickers : List Text) :
    ∃ dict, db.getByTickerBatch table order tickers = .ok dict ∧ ∀ k, Json.get? dict k =
      if (∀ s ∈ tickers, Storable s) ∧ k ∈ tickers then db.known table k else none := by
  rw [getByTickerBatch]
  by_cases hempty : tickers = []
  · refine ⟨[], if_pos hempty, ?_⟩
    intro k
    rw [hempty, if_neg fun h => List.not_mem_nil h.2]
    rfl
  rw [if_neg hempty, fetchTickers]
  by_cases hstorable : ∀ s ∈ tickers, Storable s
  · have hrows : ∀ row ∈ order.arrange (table.rows.filter fun row => row.ticker ∈ tickers),
        row ∈ table.rows := fun row hrow => List.mem_of_mem_filter (order.mem_arrange.mp hrow)
    obtain ⟨dict, hdict, hget⟩ := db.foldlM_addSecurity table hrows []
    refine ⟨dict, by rw [if_pos hstorable]; exact hdict, ?_⟩
    intro k
    rw [hget]
    have hnodup : ((order.arrange (table.rows.filter fun row => row.ticker ∈ tickers)).map
        SecurityRow.ticker).Nodup := by
      rw [((order.perm _).map _).nodup_iff]
      exact table.keys_nodup.sublist (List.filter_sublist.map _)
    by_cases hk : k ∈ tickers
    · rw [if_pos ⟨hstorable, hk⟩, known]
      cases hheld : table.held k with
      | none =>
          have hlast : lastUnder SecurityRow.ticker k
              (order.arrange (table.rows.filter fun row => row.ticker ∈ tickers)) = none := by
            rw [lastUnder_eq_none_iff]
            intro hmem
            obtain ⟨row, hrow, hticker⟩ := List.mem_map.mp hmem
            exact table.held_eq_none_iff.mp hheld
              (List.mem_map.mpr ⟨row, hrows row hrow, hticker⟩)
          rw [hlast]
          rfl
      | some row =>
          obtain ⟨hrow, rfl⟩ := table.held_eq_some_iff.mp hheld
          have hlast := lastUnder_of_mem hnodup
            (order.mem_arrange.mpr (List.mem_filter.mpr ⟨hrow, decide_eq_true hk⟩))
          rw [hlast]
          exact Option.or_none
    · have hlast : lastUnder SecurityRow.ticker k
          (order.arrange (table.rows.filter fun row => row.ticker ∈ tickers)) = none := by
        rw [lastUnder_eq_none_iff]
        intro hmem
        obtain ⟨row, hrow, rfl⟩ := List.mem_map.mp hmem
        exact hk (by simpa using (List.mem_filter.mp (order.mem_arrange.mp hrow)).2)
      rw [if_neg fun h => hk h.2, hlast]
      rfl
  · refine ⟨[], by rw [if_neg hstorable]; rfl, ?_⟩
    intro k
    rw [if_neg fun h => hstorable h.1]
    rfl

end SearchDatabase

end NexusBackend
