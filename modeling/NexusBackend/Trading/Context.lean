import NexusBackend.Market.Models
import Mathlib.Data.Finmap

/-! Rolling windows of recent ticks, one for each symbol. -/
namespace NexusBackend

open Python

structure TickContext where
  maxWindow : Nat
  bySymbol : Finmap fun _ : Text => List Tick
  maxWindow_ge : 2 ≤ maxWindow

namespace TickContext

def make (maxWindow : Int) : Except Exn TickContext :=
  if h : 2 ≤ maxWindow then .ok ⟨maxWindow.toNat, ∅, Int.toNat_le_toNat h⟩
  else raise .valueError (text "max_window must be >= 2, got " ++ intText maxWindow)

/-- `deque(maxlen=n).append`: the oldest entry leaves a full window. -/
def push (n : Nat) (bucket : List Tick) (tick : Tick) : List Tick :=
  let longer := bucket ++ [tick]
  longer.drop (longer.length - n)

def record (c : TickContext) (tick : Tick) : TickContext :=
  let bucket := (c.bySymbol.lookup tick.symbol).getD []
  { c with bySymbol := c.bySymbol.insert tick.symbol (push c.maxWindow bucket tick) }

/-- `list(bucket)[-n:]`, where a negative `n` drops from the front and zero keeps all. -/
def lastOf (n : Int) (bucket : List Tick) : List Tick :=
  if n ≤ 0 then bucket.drop n.natAbs else bucket.drop (bucket.length - n.toNat)

def recentTicks (c : TickContext) (symbol : Text) (n : Option Int) : List Tick :=
  let bucket := (c.bySymbol.lookup symbol).getD []
  match n with
  | none => bucket
  | some n => if (bucket.length : Int) ≤ n then bucket else lastOf n bucket

def recentPrices (c : TickContext) (symbol : Text) (n : Option Int) : List Decimal :=
  (c.recentTicks symbol n).map (·.price)

end TickContext
end NexusBackend
