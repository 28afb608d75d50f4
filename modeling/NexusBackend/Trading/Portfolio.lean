import NexusBackend.Trading.Models
import Mathlib.Data.Finmap

/-!
Positions and times of the last trade. The two maps change together, under a
lock, so a reader sees both or neither; a sale beyond the holding leaves zero.
-/
namespace NexusBackend

open Python

/-- The arguments of `record_fill`. -/
structure Fill where
  symbol : Text
  action : Action
  quantity : Int
  ts : UtcTime
deriving DecidableEq

structure Portfolio where
  positions : Finmap fun _ : Text => Int := ∅
  lastTradeAt : Finmap fun _ : Text => UtcTime := ∅

namespace Portfolio

def empty : Portfolio := {}

def positionOf (p : Portfolio) (symbol : Text) : Int := (p.positions.lookup symbol).getD 0

/-- The position after a fill: sales are clamped at zero. -/
def nextPosition (current : Int) (action : Action) (quantity : Int) : Int :=
  if action = .buy then current + quantity else max 0 (current - quantity)

def applyFill (p : Portfolio) (fill : Fill) : Portfolio where
  positions := p.positions.insert fill.symbol
    (nextPosition (p.positionOf fill.symbol) fill.action fill.quantity)
  lastTradeAt := p.lastTradeAt.insert fill.symbol fill.ts

def recordFill (p : Portfolio) (fill : Fill) : Except Exn Portfolio :=
  if fill.action = .hold then
    raise .valueError (text "HOLD is not a fill — only BUY/SELL update positions")
  else if fill.quantity ≤ 0 then
    raise .valueError (text "fill quantity must be > 0, got " ++ intText fill.quantity)
  else .ok (p.applyFill fill)

theorem recordFill_eq_ok {p : Portfolio} {fill : Fill} (ha : fill.action ≠ .hold)
    (hq : 0 < fill.quantity) : p.recordFill fill = .ok (p.applyFill fill) := by
  simp only [recordFill]
  rw [if_neg ha, if_neg (by omega)]

@[simp] theorem positionOf_empty (symbol : Text) : empty.positionOf symbol = 0 := by
  simp [positionOf, empty]

@[simp] theorem positionOf_applyFill_self (p : Portfolio) (fill : Fill) :
    (p.applyFill fill).positionOf fill.symbol =
      nextPosition (p.positionOf fill.symbol) fill.action fill.quantity := by
  simp [positionOf, applyFill]

theorem positionOf_applyFill_of_ne (p : Portfolio) {fill : Fill} {symbol : Text}
    (h : symbol ≠ fill.symbol) : (p.applyFill fill).positionOf symbol = p.positionOf symbol := by
  simp only [positionOf, applyFill, Finmap.lookup_insert_of_ne _ h]

@[simp] theorem lastTradeAt_applyFill_self (p : Portfolio) (fill : Fill) :
    (p.applyFill fill).lastTradeAt.lookup fill.symbol = some fill.ts :=
  Finmap.lookup_insert _

theorem lastTradeAt_applyFill_of_ne (p : Portfolio) {fill : Fill} {symbol : Text}
    (h : symbol ≠ fill.symbol) :
    (p.applyFill fill).lastTradeAt.lookup symbol = p.lastTradeAt.lookup symbol :=
  Finmap.lookup_insert_of_ne _ h

theorem nextPosition_nonneg {current quantity : Int} (action : Action) (hc : 0 ≤ current)
    (hq : 0 < quantity) : 0 ≤ nextPosition current action quantity := by
  simp only [nextPosition]
  split <;> omega

/-- Long-only: no position is negative. -/
def LongOnly (p : Portfolio) : Prop := ∀ symbol, 0 ≤ p.positionOf symbol

theorem longOnly_empty : empty.LongOnly := fun symbol => by simp

theorem LongOnly.applyFill {p : Portfolio} (h : p.LongOnly) {fill : Fill}
    (hq : 0 < fill.quantity) : (p.applyFill fill).LongOnly := by
  intro symbol
  by_cases hs : symbol = fill.symbol
  · subst hs
    rw [positionOf_applyFill_self]
    exact nextPosition_nonneg _ (h _) hq
  · rw [positionOf_applyFill_of_ne p hs]
    exact h symbol

/-- One symbol's position under its own fills, other symbols' fills passing by. -/
def ledgerStep (symbol : Text) (position : Int) (fill : Fill) : Int :=
  if fill.symbol = symbol then nextPosition position fill.action fill.quantity else position

theorem positionOf_applyFill (p : Portfolio) (fill : Fill) (symbol : Text) :
    (p.applyFill fill).positionOf symbol = ledgerStep symbol (p.positionOf symbol) fill := by
  simp only [ledgerStep]
  split
  · rename_i h
    subst h
    exact positionOf_applyFill_self p fill
  · rename_i h
    exact positionOf_applyFill_of_ne p (fun hs => h hs.symm)

end Portfolio
end NexusBackend
