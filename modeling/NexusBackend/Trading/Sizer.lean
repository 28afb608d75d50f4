import NexusBackend.Trading.Models

/-!
Order sizes. A sizer is any function of the signal and of what it can observe,
`W`; it may raise, and the executor takes `int` of what it returns.
-/
namespace NexusBackend

open Python

structure PositionSizer (W : Type*) where
  sizeFor : W → TradeSignal → Except Exn Number

/-- `int(sizer.size_for(signal))`. -/
def PositionSizer.quantity {W : Type*} (sizer : PositionSizer W) (w : W) (signal : TradeSignal) :
    Except Exn Int :=
  sizer.sizeFor w signal >>= Number.toInt

structure FixedSizer where
  quantity : Int
  quantity_pos : 0 < quantity

namespace FixedSizer

def make (quantity : Int) : Except Exn FixedSizer :=
  if h : 0 < quantity then .ok ⟨quantity, h⟩
  else raise .valueError (text "FixedSizer quantity must be > 0, got " ++ intText quantity)

def toSizer {W : Type*} (s : FixedSizer) : PositionSizer W := ⟨fun _ _ => .ok (.int s.quantity)⟩

@[simp] theorem quantity_toSizer {W : Type*} (s : FixedSizer) (w : W) (signal : TradeSignal) :
    s.toSizer.quantity w signal = .ok s.quantity := rfl

end FixedSizer

/-- Linear between the two quantities, in exact arithmetic; zero below the floor. -/
structure ConfidenceLinearSizer where
  minQuantity : Int
  maxQuantity : Int
  minConfidence : ℚ
  minQuantity_pos : 0 < minQuantity
  min_le_max : minQuantity ≤ maxQuantity
  minConfidence_range : 0 ≤ minConfidence ∧ minConfidence ≤ 1

namespace ConfidenceLinearSizer

def make (minQuantity maxQuantity : Int) (minConfidence : ℚ) :
    Except Exn ConfidenceLinearSizer :=
  if h : 0 < minQuantity ∧ minQuantity ≤ maxQuantity ∧
      (0 ≤ minConfidence ∧ minConfidence ≤ 1) then
    .ok ⟨minQuantity, maxQuantity, minConfidence, h.1, h.2.1, h.2.2⟩
  else raise .valueError

def sizeFor (s : ConfidenceLinearSizer) (confidence : ℚ) : Int :=
  let c := max 0 (min 1 confidence)
  if c < s.minConfidence then 0
  else
    let span : Int := s.maxQuantity - s.minQuantity
    let size := roundHalfEven (s.minQuantity + span * c)
    max s.minQuantity (min s.maxQuantity size)

def toSizer {W : Type*} (s : ConfidenceLinearSizer) : PositionSizer W :=
  ⟨fun _ signal => .ok (.int (s.sizeFor signal.confidence))⟩

@[simp] theorem quantity_toSizer {W : Type*} (s : ConfidenceLinearSizer) (w : W)
    (signal : TradeSignal) : s.toSizer.quantity w signal = .ok (s.sizeFor signal.confidence) :=
  rfl

end ConfidenceLinearSizer
end NexusBackend
