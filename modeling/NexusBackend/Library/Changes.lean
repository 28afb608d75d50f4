import NexusBackend.Library.LastEntries
import Mathlib.Algebra.Order.Ring.Rat
import Mathlib.Algebra.Order.BigOperators.Group.List
import Mathlib.Algebra.BigOperators.Ring.List
import Mathlib.Tactic.FieldSimp
import Mathlib.Tactic.Linarith
import Mathlib.Tactic.Ring

/-!
The changes along a sequence of quantities, what they gain and lose in total, and the share that
the gains have in both.
-/
namespace Changes

open Python

section
variable {α : Type*} [AddCommGroup α]

/-- From each entry to the next. -/
def changes (xs : List α) : List α := List.zipWith (fun prev curr => curr - prev) xs xs.tail

theorem length_changes (xs : List α) : (changes xs).length = xs.length - 1 := by
  rw [changes, List.length_zipWith, List.length_tail, Nat.min_eq_right (Nat.sub_le _ _)]

theorem changes_drop (xs : List α) (n : Nat) : changes (xs.drop n) = (changes xs).drop n := by
  simp only [changes, List.drop_zipWith, List.tail_drop, List.drop_tail]

/-- The changes within the last `n + 1` entries are the last `n` changes. -/
theorem changes_rtake (xs : List α) (n : Nat) :
    changes (xs.rtake (n + 1)) = (changes xs).rtake n := by
  rw [List.rtake, changes_drop, List.rtake, length_changes, Nat.sub_sub, Nat.add_comm 1 n]

theorem changes_map {β : Type*} [AddCommGroup β] {f : α → β} {g : α → β}
    (h : ∀ x y, f y - f x = g (y - x)) (xs : List α) :
    changes (xs.map f) = (changes xs).map g := by
  simp only [changes, ← List.map_tail, List.zipWith_map, List.map_zipWith, h]

theorem changes_add (a : α) (xs : List α) : changes (xs.map (· + a)) = changes xs := by
  rw [changes_map (g := id) (fun x y => add_sub_add_right_eq_sub y x a), List.map_id]

variable [LinearOrder α]

def gains (cs : List α) : α := (cs.map fun c => max 0 c).sum

def losses (cs : List α) : α := (cs.map fun c => max 0 (-c)).sum

theorem gains_neg (cs : List α) : gains (cs.map Neg.neg) = losses cs := by
  rw [gains, List.map_map]
  rfl

theorem losses_neg (cs : List α) : losses (cs.map Neg.neg) = gains cs := by
  simp only [losses, gains, List.map_map, Function.comp_def, neg_neg]

variable [IsOrderedAddMonoid α]

theorem gains_nonneg (cs : List α) : 0 ≤ gains cs := by
  apply List.sum_nonneg
  intro x hx
  obtain ⟨c, -, rfl⟩ := List.mem_map.mp hx
  exact le_max_left _ _

theorem losses_nonneg (cs : List α) : 0 ≤ losses cs := by
  rw [← gains_neg]
  exact gains_nonneg _

end

theorem changes_mul {α : Type*} [Ring α] (k : α) (xs : List α) :
    changes (xs.map (k * ·)) = (changes xs).map (k * ·) :=
  changes_map (fun x y => (mul_sub k y x).symm) xs

section
variable {α : Type*} [Field α] [LinearOrder α] [IsStrictOrderedRing α]

theorem gains_mul {k : α} (hk : 0 ≤ k) (cs : List α) : gains (cs.map (k * ·)) = k * gains cs := by
  have hmax (c : α) : max 0 (k * c) = k * max 0 c := by
    rw [mul_max_of_nonneg _ _ hk, mul_zero]
  simp only [gains, List.map_map, Function.comp_def, hmax, List.sum_map_mul_left]

theorem losses_mul {k : α} (hk : 0 ≤ k) (cs : List α) :
    losses (cs.map (k * ·)) = k * losses cs := by
  rw [← gains_neg, ← gains_neg, ← gains_mul hk, List.map_map, List.map_map]
  congr 1
  apply List.map_congr_left
  intro c _
  exact neg_mul_eq_mul_neg k c

/-- The share of `g` in `g + l`, and one half where there is nothing to share. -/
def share (g l : α) : α := if g + l = 0 then 1 / 2 else g / (g + l)

theorem share_range {g l : α} (hg : 0 ≤ g) (hl : 0 ≤ l) : 0 ≤ share g l ∧ share g l ≤ 1 := by
  rw [share]
  split
  · exact ⟨by norm_num, by norm_num⟩
  · have hsum : 0 ≤ g + l := add_nonneg hg hl
    exact ⟨div_nonneg hg hsum, div_le_one_of_le₀ (le_add_of_nonneg_right hl) hsum⟩

theorem share_swap (g l : α) : share l g = 1 - share g l := by
  rw [share, share, add_comm l g]
  split
  · norm_num
  · rename_i hsum
    field_simp
    ring

omit [IsStrictOrderedRing α] in
theorem share_mul {k : α} (hk : 0 < k) (g l : α) : share (k * g) (k * l) = share g l := by
  have hzero : k * g + k * l = 0 ↔ g + l = 0 := by
    rw [← mul_add, mul_eq_zero, or_iff_right hk.ne']
  rw [share, share]
  split
  · rename_i h
    rw [if_pos (hzero.mp h)]
  · rename_i h
    rw [if_neg (mt hzero.mpr h), ← mul_add, mul_div_mul_left _ _ hk.ne']

end
end Changes
