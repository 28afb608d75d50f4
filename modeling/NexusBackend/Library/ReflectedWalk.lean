import Mathlib.Algebra.Order.Group.Defs
import Mathlib.Algebra.BigOperators.Group.List.Basic
import Mathlib.Algebra.Order.Group.Unbundled.Basic
import Mathlib.Data.List.Induction

/-!
A walk kept nonnegative by clamping every step at zero, next to the plain sum of
its steps. The clamped walk is never below the sum, and equals it exactly when
no step had to be clamped.
-/
namespace ReflectedWalk

variable {α : Type*} [AddCommGroup α] [LinearOrder α]

def position (steps : List α) : α := steps.foldl (fun a x => max 0 (a + x)) 0

@[simp] theorem position_nil : position ([] : List α) = 0 := rfl

@[simp] theorem position_concat (steps : List α) (x : α) :
    position (steps ++ [x]) = max 0 (position steps + x) := by
  simp [position]

theorem position_nonneg (steps : List α) : 0 ≤ position steps := by
  induction steps using List.reverseRecOn with
  | nil => exact le_refl 0
  | append_singleton steps x _ =>
      rw [position_concat]
      exact le_max_left _ _

theorem sum_le_position [IsOrderedAddMonoid α] (steps : List α) : steps.sum ≤ position steps := by
  induction steps using List.reverseRecOn with
  | nil => exact le_refl 0
  | append_singleton steps x ih =>
      rw [position_concat, List.sum_append, List.sum_singleton]
      exact le_max_of_le_right (by gcongr)

/-- No step of the walk had to be clamped. -/
def Unclamped (steps : List α) : Prop :=
  ∀ before x after, steps = before ++ x :: after → 0 ≤ position before + x

theorem unclamped_concat (steps : List α) (x : α) :
    Unclamped (steps ++ [x]) ↔ Unclamped steps ∧ 0 ≤ position steps + x := by
  constructor
  · intro h
    refine ⟨fun before y after hs => ?_, h steps x [] rfl⟩
    subst hs
    exact h before y (after ++ [x]) (by simp)
  · rintro ⟨hsteps, hx⟩ before y after heq
    rcases List.eq_nil_or_concat after with rfl | ⟨init, z, rfl⟩
    · obtain ⟨rfl, hz⟩ := List.append_inj' heq rfl
      obtain rfl : x = y := by simpa using hz
      exact hx
    · simp only [List.concat_eq_append] at heq
      rw [← List.cons_append, ← List.append_assoc] at heq
      exact hsteps before y init (List.append_inj' heq rfl).1

/-- The clamped walk is the sum of its steps exactly when nothing was clamped. -/
theorem position_eq_sum_iff [IsOrderedAddMonoid α] (steps : List α) :
    position steps = steps.sum ↔ Unclamped steps := by
  induction steps using List.reverseRecOn with
  | nil => simp [Unclamped]
  | append_singleton steps x ih =>
      rw [unclamped_concat, ← ih, position_concat, List.sum_append, List.sum_singleton]
      have hle := sum_le_position steps
      constructor
      · intro h
        have hsum : position steps + x ≤ steps.sum + x := by
          rw [← h]
          exact le_max_right _ _
        have heq : position steps = steps.sum :=
          le_antisymm (by simpa using hsum) hle
        refine ⟨heq, ?_⟩
        rw [heq, ← h]
        exact le_max_left _ _
      · rintro ⟨heq, hx⟩
        rw [max_eq_right hx, heq]

end ReflectedWalk
