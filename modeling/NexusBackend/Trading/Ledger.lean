import NexusBackend.Trading.Portfolio

/-!
The portfolio as a ledger: what any sequence of calls of `record_fill` leaves.

The statements of `record_fill` run one by one on the two dictionaries, and an exception keeps
what was written before it. A call that raises is answered to its caller, and the next call
finds the state it left.
-/
namespace NexusBackend

open Python

/-- A call that `record_fill` does not refuse. -/
def Fill.Valid (fill : Fill) : Prop := fill.action ≠ .hold ∧ 0 < fill.quantity

instance (fill : Fill) : Decidable fill.Valid := inferInstanceAs (Decidable (_ ∧ _))

namespace Portfolio

/-- `record_fill`, statement by statement. -/
def recordFillSteps (fill : Fill) : ExceptT Exn (StateM Portfolio) Unit := do
  if fill.action = .hold then
    throw ⟨.valueError, text "HOLD is not a fill — only BUY/SELL update positions"⟩
  if fill.quantity ≤ 0 then
    throw ⟨.valueError, text "fill quantity must be > 0, got " ++ intText fill.quantity⟩
  let current := (← get).positionOf fill.symbol
  if fill.action = .buy then
    modify fun p => { p with
      positions := p.positions.insert fill.symbol (current + fill.quantity) }
  else
    modify fun p => { p with
      positions := p.positions.insert fill.symbol (max 0 (current - fill.quantity)) }
  modify fun p => { p with lastTradeAt := p.lastTradeAt.insert fill.symbol fill.ts }

/-- One call: its outcome, and the state behind it. -/
def call (p : Portfolio) (fill : Fill) : Except Exn Unit × Portfolio :=
  (recordFillSteps fill).run.run p

/-- The state after a sequence of calls, whatever they answer. -/
def recordFills (p : Portfolio) (fills : List Fill) : Portfolio :=
  fills.foldl (fun p fill => (p.call fill).2) p

/-! ### One call -/

theorem call_of_valid (p : Portfolio) {fill : Fill} (h : fill.Valid) :
    p.call fill = (.ok (), p.applyFill fill) := by
  obtain ⟨hhold, hquantity⟩ := h
  simp only [call, recordFillSteps, if_neg hhold, if_neg (not_le.mpr hquantity), applyFill,
    nextPosition]
  split <;> rfl

/-- A call that is refused raises before it writes. -/
theorem call_of_invalid (p : Portfolio) {fill : Fill} (h : ¬ fill.Valid) :
    ∃ e : Exn, e.kind = .valueError ∧ p.call fill = (.error e, p) := by
  by_cases hhold : fill.action = .hold
  · simp only [call, recordFillSteps, if_pos hhold]
    exact ⟨_, rfl, rfl⟩
  · have hquantity : fill.quantity ≤ 0 := not_lt.mp fun hpos => h ⟨hhold, hpos⟩
    simp only [call, recordFillSteps, if_neg hhold, if_pos hquantity]
    exact ⟨_, rfl, rfl⟩

theorem call_snd (p : Portfolio) (fill : Fill) :
    (p.call fill).2 = if fill.Valid then p.applyFill fill else p := by
  split
  · rename_i h
    rw [call_of_valid p h]
  · rename_i h
    obtain ⟨e, -, he⟩ := call_of_invalid p h
    rw [he]

/-- The outcome of a call is that of `recordFill`. -/
theorem call_eq (p : Portfolio) (fill : Fill) :
    p.call fill = match p.recordFill fill with
      | .ok q => (.ok (), q)
      | .error e => (.error e, p) := by
  by_cases hhold : fill.action = .hold
  · simp only [call, recordFillSteps, recordFill, if_pos hhold]
    rfl
  · by_cases hquantity : fill.quantity ≤ 0
    · simp only [call, recordFillSteps, recordFill, if_neg hhold, if_pos hquantity]
      rfl
    · rw [call_of_valid p ⟨hhold, not_le.mp hquantity⟩,
        recordFill_eq_ok hhold (not_le.mp hquantity)]

/-! ### The history of a symbol -/

/-- The valid fills of a symbol, in order. -/
def fillsOf (symbol : Text) (fills : List Fill) : List Fill :=
  fills.filter fun fill => fill.symbol = symbol ∧ fill.Valid

/-- The position after a fill, by its action. -/
def foldPosition (position : Int) (fill : Fill) : Int :=
  match fill.action with
  | .buy => position + fill.quantity
  | .sell => max 0 (position - fill.quantity)
  | .hold => position

theorem fillsOf_concat_of_mem {symbol : Text} (fills : List Fill) {fill : Fill}
    (hs : fill.symbol = symbol) (h : fill.Valid) :
    fillsOf symbol (fills ++ [fill]) = fillsOf symbol fills ++ [fill] := by
  rw [fillsOf, List.filter_append, List.filter_singleton, decide_eq_true ⟨hs, h⟩]
  rfl

theorem fillsOf_concat_of_not_mem {symbol : Text} (fills : List Fill) {fill : Fill}
    (h : ¬ (fill.symbol = symbol ∧ fill.Valid)) :
    fillsOf symbol (fills ++ [fill]) = fillsOf symbol fills := by
  rw [fillsOf, List.filter_append, List.filter_singleton, decide_eq_false h]
  exact List.append_nil _

theorem nextPosition_eq_foldPosition (position : Int) {fill : Fill} (h : fill.action ≠ .hold) :
    nextPosition position fill.action fill.quantity = foldPosition position fill := by
  rw [nextPosition, foldPosition]
  cases ha : fill.action with
  | buy => exact if_pos rfl
  | sell => exact if_neg (by decide)
  | hold => exact absurd ha h

/-- What the two dictionaries say after a history of calls. -/
structure Books (fills : List Fill) (p : Portfolio) : Prop where
  position : ∀ symbol, p.positionOf symbol = (fillsOf symbol fills).foldl foldPosition 0
  lastTrade : ∀ symbol, p.lastTradeAt.lookup symbol = (fillsOf symbol fills).getLast?.map Fill.ts
  keys : p.positions.keys = p.lastTradeAt.keys
  longOnly : p.LongOnly

theorem books_empty : Books [] empty where
  position symbol := positionOf_empty symbol
  lastTrade symbol := Finmap.lookup_empty symbol
  keys := rfl
  longOnly := longOnly_empty

theorem Books.applyFill {fills : List Fill} {p : Portfolio} (h : Books fills p) {fill : Fill}
    (hvalid : fill.Valid) : Books (fills ++ [fill]) (p.applyFill fill) := by
  refine ⟨?_, ?_, ?_, h.longOnly.applyFill hvalid.2⟩
  · intro symbol
    by_cases hs : fill.symbol = symbol
    · subst hs
      rw [positionOf_applyFill_self, fillsOf_concat_of_mem fills rfl hvalid, List.foldl_append,
        h.position, nextPosition_eq_foldPosition _ hvalid.1]
      rfl
    · rw [positionOf_applyFill_of_ne p (Ne.symm hs),
        fillsOf_concat_of_not_mem fills fun hmem => hs hmem.1]
      exact h.position symbol
  · intro symbol
    by_cases hs : fill.symbol = symbol
    · subst hs
      rw [lastTradeAt_applyFill_self, fillsOf_concat_of_mem fills rfl hvalid,
        List.getLast?_concat]
      rfl
    · rw [lastTradeAt_applyFill_of_ne p (Ne.symm hs),
        fillsOf_concat_of_not_mem fills fun hmem => hs hmem.1]
      exact h.lastTrade symbol
  · ext symbol
    have hkeys : symbol ∈ p.positions ↔ symbol ∈ p.lastTradeAt := by
      rw [← Finmap.mem_keys, ← Finmap.mem_keys, h.keys]
    simp only [Portfolio.applyFill, Finmap.mem_keys, Finmap.mem_insert, hkeys]

theorem Books.call {fills : List Fill} {p : Portfolio} (h : Books fills p) (fill : Fill) :
    Books (fills ++ [fill]) (p.call fill).2 := by
  rw [call_snd]
  split
  · rename_i hvalid
    exact h.applyFill hvalid
  · rename_i hinvalid
    have hsame (symbol : Text) : fillsOf symbol (fills ++ [fill]) = fillsOf symbol fills :=
      fillsOf_concat_of_not_mem fills fun hmem => hinvalid hmem.2
    refine ⟨?_, ?_, h.keys, h.longOnly⟩
    · intro symbol
      rw [hsame]
      exact h.position symbol
    · intro symbol
      rw [hsame]
      exact h.lastTrade symbol

theorem recordFills_concat (p : Portfolio) (fills : List Fill) (fill : Fill) :
    p.recordFills (fills ++ [fill]) = ((p.recordFills fills).call fill).2 := List.foldl_append

theorem books_recordFills (fills : List Fill) : Books fills (empty.recordFills fills) := by
  induction fills using List.reverseRecOn with
  | nil => exact books_empty
  | append_singleton fills fill ih =>
      rw [recordFills_concat]
      exact ih.call fill

/-! ### The order of the calls -/

theorem applyFill_comm (p : Portfolio) {first second : Fill}
    (h : first.symbol ≠ second.symbol) :
    (p.applyFill first).applyFill second = (p.applyFill second).applyFill first := by
  refine congrArg₂ Portfolio.mk ?_ ?_
  · rw [positionOf_applyFill_of_ne p h, positionOf_applyFill_of_ne p h.symm]
    exact Finmap.insert_insert_of_ne p.positions h
  · exact Finmap.insert_insert_of_ne p.lastTradeAt h

theorem call_comm (p : Portfolio) {first second : Fill} (h : first.symbol ≠ second.symbol) :
    ((p.call first).2.call second).2 = ((p.call second).2.call first).2 := by
  simp only [call_snd]
  by_cases hfirst : first.Valid
  · by_cases hsecond : second.Valid
    · simp only [if_pos hfirst, if_pos hsecond]
      exact applyFill_comm p h
    · simp only [if_neg hsecond]
  · simp only [if_neg hfirst]

theorem recordFills_swap (p : Portfolio) (before after : List Fill) {first second : Fill}
    (h : first.symbol ≠ second.symbol) :
    p.recordFills (before ++ first :: second :: after) =
      p.recordFills (before ++ second :: first :: after) := by
  rw [recordFills, recordFills, List.foldl_append, List.foldl_append]
  simp only [List.foldl_cons, call_comm _ h]

/-- The ledger of any history: positions and times told by the valid fills of each symbol,
fills of different symbols in either order, nothing from a call that is refused. -/
theorem recordFills_ledger :
    (∀ fills, Books fills (empty.recordFills fills)) ∧
    (∀ (before after : List Fill) (first second : Fill), first.symbol ≠ second.symbol →
      empty.recordFills (before ++ first :: second :: after) =
        empty.recordFills (before ++ second :: first :: after)) ∧
    (∀ (fills : List Fill) (fill : Fill), fill.action = .hold ∨ fill.quantity ≤ 0 →
      ∃ e : Exn, e.kind = .valueError ∧
        (empty.recordFills fills).call fill = (.error e, empty.recordFills fills)) := by
  refine ⟨books_recordFills, ?_, ?_⟩
  · intro before after first second h
    exact recordFills_swap empty before after h
  · intro fills fill h
    apply call_of_invalid
    intro hvalid
    rcases h with h | h
    · exact hvalid.1 h
    · exact absurd hvalid.2 (not_lt.mpr h)

/-- A sale beyond the holding, with another symbol's fill between, and a HOLD behind them. -/
theorem recordFills_ledger_short_sale :
    let ts : UtcTime := ⟨sampleDate, Time.midnight⟩
    let bought : Fill := ⟨text "005930", .buy, 5, ts⟩
    let other : Fill := ⟨text "000660", .buy, 2, ts⟩
    let sold : Fill := ⟨text "005930", .sell, 9, ts⟩
    let p := empty.recordFills [bought, other, sold]
    p.positionOf (text "005930") = 0 ∧ p = empty.recordFills [bought, sold, other] ∧
      (p.call ⟨text "005930", .hold, 1, ts⟩).2 = p := by
  intro ts bought other sold p
  refine ⟨?_, recordFills_ledger.2.1 [bought] [] other sold (by decide), ?_⟩
  · rw [(recordFills_ledger.1 [bought, other, sold]).position]
    decide
  · obtain ⟨e, -, he⟩ := recordFills_ledger.2.2 [bought, other, sold]
      ⟨text "005930", .hold, 1, ts⟩ (.inl rfl)
    change ((empty.recordFills [bought, other, sold]).call _).2 = _
    rw [he]

end Portfolio
end NexusBackend
