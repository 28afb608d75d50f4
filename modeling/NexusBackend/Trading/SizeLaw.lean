import NexusBackend.Trading.Sizer
import Mathlib.Tactic.Linarith

/-!
The size that `ConfidenceLinearSizer` gives to a confidence, in exact arithmetic: the rounding of
a line between the two quantities, and zero below the floor.
-/
namespace NexusBackend

open Python

namespace ConfidenceLinearSizer

/-- The confidence as the sizer takes it. -/
def clamp (confidence : ℚ) : ℚ := max 0 (min 1 confidence)

theorem clamp_range (c : ℚ) : 0 ≤ clamp c ∧ clamp c ≤ 1 :=
  ⟨le_max_left _ _, max_le zero_le_one (min_le_left _ _)⟩

theorem clamp_of_range {c : ℚ} (h0 : 0 ≤ c) (h1 : c ≤ 1) : clamp c = c := by
  rw [clamp, min_eq_right h1, max_eq_right h0]

theorem clamp_mono {c d : ℚ} (h : c ≤ d) : clamp c ≤ clamp d :=
  max_le_max le_rfl (min_le_min le_rfl h)

variable (s : ConfidenceLinearSizer)

/-- The line between the two quantities. -/
def line (c : ℚ) : ℚ := s.minQuantity + (s.maxQuantity - s.minQuantity) * c

theorem line_zero : s.line 0 = s.minQuantity := by
  rw [line, mul_zero, add_zero]

theorem line_one : s.line 1 = s.maxQuantity := by
  rw [line, mul_one, add_sub_cancel]

theorem line_mono {c d : ℚ} (h : c ≤ d) : s.line c ≤ s.line d := by
  have hspan : (0 : ℚ) ≤ s.maxQuantity - s.minQuantity := by
    rw [sub_nonneg]
    exact_mod_cast s.min_le_max
  exact add_le_add le_rfl (mul_le_mul_of_nonneg_left h hspan)

/-- The rounded line stays between the quantities. -/
theorem round_line_range {c : ℚ} (h0 : 0 ≤ c) (h1 : c ≤ 1) :
    s.minQuantity ≤ roundHalfEven (s.line c) ∧ roundHalfEven (s.line c) ≤ s.maxQuantity := by
  constructor
  · apply roundHalfEven_mono_int
    rw [← line_zero]
    exact s.line_mono h0
  · apply roundHalfEven_le_int
    rw [← line_one]
    exact s.line_mono h1

theorem sizeFor_below {c : ℚ} (h : clamp c < s.minConfidence) : s.sizeFor c = 0 := by
  rw [sizeFor]
  exact if_pos h

/-- From the floor on, the clamp of the result changes nothing. -/
theorem sizeFor_from {c : ℚ} (h : s.minConfidence ≤ clamp c) :
    s.sizeFor c = roundHalfEven (s.line (clamp c)) := by
  obtain ⟨hmin, hmax⟩ := s.round_line_range (clamp_range c).1 (clamp_range c).2
  have hline : (s.minQuantity : ℚ) + ((s.maxQuantity - s.minQuantity : Int) : ℚ) * clamp c =
      s.line (clamp c) := by
    rw [line, Int.cast_sub]
  simp only [sizeFor]
  rw [← clamp, if_neg (not_lt.mpr h), hline, min_eq_right hmax, max_eq_right hmin]

theorem sizeFor_eq_zero_iff (c : ℚ) : s.sizeFor c = 0 ↔ clamp c < s.minConfidence := by
  refine ⟨fun hzero => ?_, s.sizeFor_below⟩
  by_contra hfrom
  have hpos := s.minQuantity_pos
  have hmin := (s.round_line_range (clamp_range c).1 (clamp_range c).2).1
  rw [s.sizeFor_from (not_lt.mp hfrom)] at hzero
  omega

theorem sizeFor_mono {c d : ℚ} (h : c ≤ d) : s.sizeFor c ≤ s.sizeFor d := by
  have hclamp := clamp_mono h
  by_cases hd : clamp d < s.minConfidence
  · rw [s.sizeFor_below hd, s.sizeFor_below (lt_of_le_of_lt hclamp hd)]
  · rw [s.sizeFor_from (not_lt.mp hd)]
    by_cases hc : clamp c < s.minConfidence
    · have hpos := s.minQuantity_pos
      have hmin := (s.round_line_range (clamp_range d).1 (clamp_range d).2).1
      rw [s.sizeFor_below hc]
      omega
    · rw [s.sizeFor_from (not_lt.mp hc)]
      exact roundHalfEven_mono (s.line_mono hclamp)

/-- A size from the floor on: between the quantities, the line rounded, and no more than one half
off it. -/
structure OnLine (c : ℚ) (size : Int) : Prop where
  range : s.minQuantity ≤ size ∧ size ≤ s.maxQuantity
  rounded : size = roundHalfEven (s.line (clamp c))
  near : |(size : ℚ) - s.line (clamp c)| ≤ 1 / 2

theorem sizeFor_onLine {c : ℚ} (h : s.minConfidence ≤ clamp c) : s.OnLine c (s.sizeFor c) := by
  have hround := s.sizeFor_from h
  refine ⟨?_, hround, ?_⟩
  · rw [hround]
    exact s.round_line_range (clamp_range c).1 (clamp_range c).2
  · rw [hround, abs_sub_comm]
    obtain hlt | ⟨heq, -⟩ := roundHalfEven_isRounding (s.line (clamp c))
    · exact hlt.le
    · exact heq.le

/-- The size is zero exactly below the floor, from there on the rounded line with its two ends,
and it never falls where the confidence rises. -/
theorem sizeFor_law :
    (∀ c, s.sizeFor c = 0 ↔ clamp c < s.minConfidence) ∧
      (∀ c, s.minConfidence ≤ clamp c → s.OnLine c (s.sizeFor c)) ∧
      (∀ c, 0 ≤ c → c ≤ 1 → s.line (clamp c) =
        s.minQuantity + (s.maxQuantity - s.minQuantity) * c) ∧
      (s.minConfidence = 0 → s.sizeFor 0 = s.minQuantity) ∧
      s.sizeFor 1 = s.maxQuantity ∧
      ∀ c d, c ≤ d → s.sizeFor c ≤ s.sizeFor d := by
  have hzero : clamp 0 = 0 := clamp_of_range le_rfl zero_le_one
  have hone : clamp 1 = 1 := clamp_of_range zero_le_one le_rfl
  refine ⟨s.sizeFor_eq_zero_iff, fun c => s.sizeFor_onLine, ?_, ?_, ?_,
    fun c d => s.sizeFor_mono⟩
  · intro c h0 h1
    rw [clamp_of_range h0 h1]
    rfl
  · intro hfloor
    rw [s.sizeFor_from (by rw [hzero, hfloor]), hzero, line_zero, roundHalfEven_intCast]
  · rw [s.sizeFor_from (by rw [hone]; exact s.minConfidence_range.2), hone, line_one,
      roundHalfEven_intCast]

end ConfidenceLinearSizer
end NexusBackend
