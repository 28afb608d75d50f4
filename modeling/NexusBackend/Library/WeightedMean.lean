import Mathlib.Algebra.Order.BigOperators.Group.List
import Mathlib.Algebra.Order.Field.Basic

/-!
Weighted sums over a list: only the elements count, not their order; with weights that
are not negative, the total weight bounds them, the mean grows with each value, and its sign
is that of one of the values that carry weight.
-/
namespace WeightedMean

variable {α K : Type*} [Field K]

def total (weight : α → K) (xs : List α) : K := (xs.map weight).sum

def weighted (weight value : α → K) (xs : List α) : K :=
  (xs.map fun x => weight x * value x).sum

def mean (weight value : α → K) (xs : List α) : K := weighted weight value xs / total weight xs

theorem total_perm (weight : α → K) {xs ys : List α} (h : xs.Perm ys) :
    total weight xs = total weight ys :=
  (h.map weight).sum_eq

theorem mean_perm (weight value : α → K) {xs ys : List α} (h : xs.Perm ys) :
    mean weight value xs = mean weight value ys := by
  rw [mean, mean, total_perm weight h, weighted, weighted, (h.map _).sum_eq]

variable [LinearOrder K] [IsStrictOrderedRing K] {weight value : α → K} {xs : List α}

theorem total_nonneg (hw : ∀ x ∈ xs, 0 ≤ weight x) : 0 ≤ total weight xs := by
  apply List.sum_nonneg
  intro w hmem
  obtain ⟨x, hx, rfl⟩ := List.mem_map.mp hmem
  exact hw x hx

theorem abs_weighted_le (hw : ∀ x ∈ xs, 0 ≤ weight x) (hv : ∀ x ∈ xs, |value x| ≤ 1) :
    |weighted weight value xs| ≤ total weight xs := by
  induction xs with
  | nil => simp [weighted, total]
  | cons x xs ih =>
      simp only [weighted, total, List.map_cons, List.sum_cons]
      have hx : |weight x * value x| ≤ weight x := by
        rw [abs_mul, abs_of_nonneg (hw x List.mem_cons_self)]
        exact mul_le_of_le_one_right (hw x List.mem_cons_self) (hv x List.mem_cons_self)
      have hrest := ih (fun y hy => hw y (List.mem_cons_of_mem x hy))
        fun y hy => hv y (List.mem_cons_of_mem x hy)
      exact (abs_add_le _ _).trans (add_le_add hx hrest)

/-- A mean of values within one of zero is within one of zero. -/
theorem abs_mean_le_one (hw : ∀ x ∈ xs, 0 ≤ weight x) (hv : ∀ x ∈ xs, |value x| ≤ 1) :
    |mean weight value xs| ≤ 1 := by
  have htotal := total_nonneg hw
  rw [mean, abs_div, abs_of_nonneg htotal]
  exact div_le_one_of_le₀ (abs_weighted_le hw hv) htotal

/-- The lists have the same weights, and no value of the first is above that of the second. -/
def Below (weight value : α → K) (xs ys : List α) : Prop :=
  List.Forall₂ (fun x y => weight x = weight y ∧ value x ≤ value y) xs ys

omit [IsStrictOrderedRing K] in
theorem total_below {ys : List α} (h : Below weight value xs ys) :
    total weight xs = total weight ys := by
  induction h with
  | nil => rfl
  | cons hxy _ ih =>
      simp only [total, List.map_cons, List.sum_cons] at ih ⊢
      rw [hxy.1, ih]

theorem weighted_mono {ys : List α} (h : Below weight value xs ys)
    (hw : ∀ x ∈ xs, 0 ≤ weight x) : weighted weight value xs ≤ weighted weight value ys := by
  induction h with
  | nil => exact le_rfl
  | @cons x y xs ys hxy _ ih =>
      simp only [weighted, List.map_cons, List.sum_cons] at ih ⊢
      have hhead : weight x * value x ≤ weight y * value y := by
        rw [← hxy.1]
        exact mul_le_mul_of_nonneg_left hxy.2 (hw x List.mem_cons_self)
      exact add_le_add hhead (ih fun z hz => hw z (List.mem_cons_of_mem x hz))

theorem mean_mono {ys : List α} (h : Below weight value xs ys)
    (hw : ∀ x ∈ xs, 0 ≤ weight x) : mean weight value xs ≤ mean weight value ys := by
  rw [mean, mean, ← total_below h]
  exact div_le_div_of_nonneg_right (weighted_mono h hw) (total_nonneg hw)

/-! ### The sign of a mean -/

theorem weighted_nonpos (h : ∀ x ∈ xs, weight x * value x ≤ 0) :
    weighted weight value xs ≤ 0 := by
  have hle := List.sum_le_card_nsmul (xs.map fun x => weight x * value x) 0 (by
    intro y hmem
    obtain ⟨x, hx, rfl⟩ := List.mem_map.mp hmem
    exact h x hx)
  rwa [nsmul_zero] at hle

theorem weighted_neg (h : ∀ x ∈ xs, weight x * value x ≤ 0)
    (hneg : ∃ x ∈ xs, weight x * value x < 0) : weighted weight value xs < 0 := by
  have hlt := List.sum_lt_sum (fun x => weight x * value x) (fun _ => (0 : K)) h hneg
  rwa [List.map_const', List.sum_replicate, nsmul_zero] at hlt

omit [LinearOrder K] [IsStrictOrderedRing K] in
omit [LinearOrder K] [IsStrictOrderedRing K] in
theorem mean_neg (weight value : α → K) (xs : List α) :
    mean weight (fun x => -value x) xs = -mean weight value xs := by
  have hsum : weighted weight (fun x => -value x) xs = -weighted weight value xs := by
    induction xs with
    | nil => simp [weighted]
    | cons x xs ih =>
        simp only [weighted, List.map_cons, List.sum_cons] at ih ⊢
        rw [ih, mul_neg, neg_add]
  rw [mean, mean, hsum, neg_div]

/-- A positive mean has a positive value that carries weight. -/
theorem exists_pos_of_mean_pos (hw : ∀ x ∈ xs, 0 ≤ weight x) (h : 0 < mean weight value xs) :
    ∃ x ∈ xs, 0 < weight x ∧ 0 < value x := by
  by_contra hnone
  have hsum : weighted weight value xs ≤ 0 := by
    apply weighted_nonpos
    intro x hx
    have hweight := hw x hx
    by_contra hpos
    have hvalue : 0 < value x := pos_of_mul_pos_right (not_le.mp hpos) hweight
    exact hnone ⟨x, hx, (pos_iff_pos_of_mul_pos (not_le.mp hpos)).mpr hvalue, hvalue⟩
  exact absurd h (not_lt.mpr (div_nonpos_of_nonpos_of_nonneg hsum (total_nonneg hw)))

theorem exists_neg_of_mean_neg (hw : ∀ x ∈ xs, 0 ≤ weight x) (h : mean weight value xs < 0) :
    ∃ x ∈ xs, 0 < weight x ∧ value x < 0 := by
  have hpos : 0 < mean weight (fun x => -value x) xs := by
    rw [mean_neg]
    exact neg_pos.mpr h
  obtain ⟨x, hx, hweight, hvalue⟩ := exists_pos_of_mean_pos hw hpos
  exact ⟨x, hx, hweight, neg_pos.mp hvalue⟩

end WeightedMean
