import Mathlib.Data.List.Perm.Basic
import Mathlib.Order.Lattice
import Mathlib.Order.OrderDual

/-!
A list in the order of a key, ascending or descending, and the first elements of it.

The sort is stable, as `list.sort(key)` is, with `reverse=True` too: elements with one key stay
in their order. Where the key tells the elements apart, the order they came in does not show.
-/
namespace Ranking

variable {α κ : Type} [LinearOrder κ] (key : α → κ)

def ascending (xs : List α) : List α := xs.mergeSort fun a b => decide (key a ≤ key b)

theorem ascending_perm (xs : List α) : (ascending key xs).Perm xs := List.mergeSort_perm xs _

theorem ascending_sorted (xs : List α) :
    (ascending key xs).Pairwise fun a b => key a ≤ key b := by
  have htrans (a b c : α) (hab : decide (key a ≤ key b) = true)
      (hbc : decide (key b ≤ key c) = true) : decide (key a ≤ key c) = true :=
    decide_eq_true (le_trans (of_decide_eq_true hab) (of_decide_eq_true hbc))
  have htotal (a b : α) : (decide (key a ≤ key b) || decide (key b ≤ key a)) = true := by
    rw [Bool.or_eq_true, decide_eq_true_eq, decide_eq_true_eq]
    exact le_total _ _
  exact (List.pairwise_mergeSort htrans htotal xs).imp fun h => of_decide_eq_true h

/-- Where the key tells the elements apart, only one order of them is ascending. -/
theorem eq_ascending {xs ys : List α} (hperm : ys.Perm xs)
    (hsorted : ys.Pairwise fun a b => key a ≤ key b)
    (hinj : ∀ a ∈ xs, ∀ b ∈ xs, key a = key b → a = b) : ys = ascending key xs := by
  refine List.Perm.eq_of_pairwise ?_ hsorted (ascending_sorted key xs)
    (hperm.trans (ascending_perm key xs).symm)
  intro a b ha hb hab hba
  have hb' : b ∈ xs := (ascending_perm key xs).mem_iff.mp hb
  exact hinj a (hperm.mem_iff.mp ha) b hb' (le_antisymm hab hba)

/-- What a cut leaves out is not before what it keeps. -/
theorem le_omitted {xs kept omitted : List α} (n : Nat)
    (hkept : kept = (ascending key xs).take n) (h : (kept ++ omitted).Perm xs) {a b : α}
    (ha : a ∈ kept) (hb : b ∈ omitted) : key a ≤ key b := by
  have hcut : kept ++ (ascending key xs).drop n = ascending key xs := by
    rw [hkept, List.take_append_drop]
  have hrest : omitted.Perm ((ascending key xs).drop n) := by
    rw [← List.perm_append_left_iff kept, hcut]
    exact h.trans (ascending_perm key xs).symm
  have hsorted := ascending_sorted key xs
  rw [← hcut, List.pairwise_append] at hsorted
  exact hsorted.2.2 a ha b (hrest.mem_iff.mp hb)

/-- The first `n` of `xs`: in order, with none of the others before one of them. -/
structure IsFirst (n : Nat) (kept xs : List α) : Prop where
  sorted : kept.Pairwise fun a b => key a ≤ key b
  length_eq : kept.length = min n xs.length
  others : ∃ omitted, (kept ++ omitted).Perm xs ∧ ∀ a ∈ kept, ∀ b ∈ omitted, key a ≤ key b

theorem take_ascending_isFirst (n : Nat) (xs : List α) :
    IsFirst key n ((ascending key xs).take n) xs where
  sorted := (ascending_sorted key xs).sublist (List.take_sublist n _)
  length_eq := by rw [List.length_take, (ascending_perm key xs).length_eq]
  others := by
    have hperm : ((ascending key xs).take n ++ (ascending key xs).drop n).Perm xs := by
      rw [List.take_append_drop]
      exact ascending_perm key xs
    exact ⟨_, hperm, fun a ha b hb => le_omitted key n rfl hperm ha hb⟩

/-- The first elements of an ascending list are all that are not above one of them. -/
theorem mem_take_of_le {xs : List κ} (hsorted : xs.Pairwise (· < ·)) {n : Nat} {v w : κ}
    (hw : w ∈ xs.take n) (hv : v ∈ xs) (hle : v ≤ w) : v ∈ xs.take n := by
  rw [← List.take_append_drop n xs] at hv hsorted
  rcases List.mem_append.mp hv with hv | hv
  · exact hv
  · exact absurd hle (not_le_of_gt ((List.pairwise_append.mp hsorted).2.2 w hw v hv))

/-! ### Descending -/

def descending (xs : List α) : List α := ascending (fun a => OrderDual.toDual (key a)) xs

/-- The key of the first is not below that of the second. -/
def NotBelow (a b : α) : Prop := key b ≤ key a

theorem descending_perm (xs : List α) : (descending key xs).Perm xs := ascending_perm _ xs

theorem descending_sorted (xs : List α) : (descending key xs).Pairwise (NotBelow key) :=
  ascending_sorted (fun a => OrderDual.toDual (key a)) xs

/-- The result does not depend on the order of elements that the key tells apart. -/
theorem descending_eq_of_perm {xs ys : List α} (h : xs.Perm ys)
    (hinj : ∀ a ∈ xs, ∀ b ∈ xs, key a = key b → a = b) :
    descending key xs = descending key ys := by
  refine (eq_ascending (fun a => OrderDual.toDual (key a)) ?_ (descending_sorted key ys) ?_).symm
  · exact (descending_perm key ys).trans h.symm
  · intro a ha b hb heq
    exact hinj a ha b hb (OrderDual.toDual.injective heq)

theorem notBelow_omitted {xs kept omitted : List α} (n : Nat)
    (hkept : kept = (descending key xs).take n) (h : (kept ++ omitted).Perm xs) {a b : α}
    (ha : a ∈ kept) (hb : b ∈ omitted) : NotBelow key a b :=
  le_omitted (fun a => OrderDual.toDual (key a)) n hkept h ha hb

end Ranking
