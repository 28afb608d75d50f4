import NexusBackend.Library.DateTime
import NexusBackend.Library.Number

/-!
Market records: one executed trade, and the order book snapshot. Descriptions of
the fields for the API schema are left out.
-/
namespace NexusBackend

open Python

/-- A day of trading, for the examples. -/
def sampleDate : Date := ⟨2026, 1, 5, by decide, by decide, by decide⟩

inductive TickSide
  | buy
  | sell
deriving DecidableEq

namespace TickSide

def value : TickSide → Text
  | buy => text "buy"
  | sell => text "sell"

/-- `TickSide(value)`. -/
def ofValue (v : Text) : Except Exn TickSide :=
  if v = text "buy" then .ok buy
  else if v = text "sell" then .ok sell
  else raise .valueError

@[simp] theorem ofValue_value (s : TickSide) : ofValue s.value = .ok s := by
  cases s <;> decide

end TickSide

/-- Validation of the model admits no infinite and no undefined price. -/
structure Tick where
  symbol : Text
  ts : DateTime
  price : Decimal
  volume : Int
  side : TickSide
  price_finite : price.isFinite = true
deriving DecidableEq

def Tick.make (symbol : Text) (ts : DateTime) (price : Decimal) (volume : Int)
    (side : TickSide) : Except Exn Tick :=
  if h : price.isFinite = true then .ok ⟨symbol, ts, price, volume, side, h⟩
  else raise .validationError

theorem Tick.make_eq_ok {symbol : Text} {ts : DateTime} {price : Decimal} {volume : Int}
    {side : TickSide} (h : price.isFinite = true) :
    Tick.make symbol ts price volume side = .ok ⟨symbol, ts, price, volume, side, h⟩ := by
  simp only [Tick.make]
  rw [dif_pos h]

theorem Tick.make_ends (symbol : Text) (ts : DateTime) (price : Decimal) (volume : Int)
    (side : TickSide) :
    Ends (fun _ => True) (fun e => e.kind = .validationError)
      (Tick.make symbol ts price volume side) := by
  simp only [Tick.make]
  split
  · exact ends_ok trivial
  · exact ends_error rfl

theorem Tick.make_infinite {symbol : Text} {ts : DateTime} {price : Decimal} {volume : Int}
    {side : TickSide} (h : price.isFinite = false) :
    Tick.make symbol ts price volume side = raise .validationError := by
  simp only [Tick.make]
  rw [dif_neg (by simp [h])]

/-- One price level of an order book. -/
structure QuoteLevel where
  price : Int
  volume : Int
deriving DecidableEq

structure Quote where
  symbol : Text
  ts : DateTime
  bids : List QuoteLevel
  asks : List QuoteLevel
deriving DecidableEq

end NexusBackend
