import NexusBackend.Library.Exceptions
import Mathlib.Data.List.DropRight
import Mathlib.Data.List.GetD

/-!
The last entries of a list, `xs[-n:]` for a positive `n`, and `xs[i]` with an index that may
count from the end.
-/
namespace Python

variable {α : Type*}

theorem length_rtake (xs : List α) (n : Nat) : (xs.rtake n).length = min n xs.length := by
  simp only [List.rtake, List.length_drop]
  omega

theorem rtake_of_length_le {xs : List α} {n : Nat} (h : xs.length ≤ n) : xs.rtake n = xs := by
  simp only [List.rtake, Nat.sub_eq_zero_of_le h, List.drop_zero]

theorem rtake_rtake (xs : List α) (m n : Nat) : (xs.rtake m).rtake n = xs.rtake (min n m) := by
  simp only [List.rtake_eq_reverse_take_reverse, List.reverse_reverse, List.take_take]

/-- Cutting at the length of the list changes nothing. -/
theorem rtake_min_length (xs : List α) (n : Nat) : xs.rtake (min n xs.length) = xs.rtake n := by
  have hall := rtake_of_length_le (Nat.le_refl xs.length)
  rw [← rtake_rtake, hall]

/-- A window that slides: what it has dropped does not come back. -/
theorem rtake_push (xs : List α) (x : α) (n : Nat) :
    (xs.rtake n ++ [x]).rtake n = (xs ++ [x]).rtake n := by
  cases n with
  | zero => simp
  | succ n => simp only [List.rtake_concat_succ, rtake_rtake, Nat.min_eq_left (Nat.le_succ n)]

theorem rtake_map {β : Type*} (f : α → β) (xs : List α) (n : Nat) :
    (xs.map f).rtake n = (xs.rtake n).map f := by
  simp only [List.rtake, List.length_map, List.map_drop]

theorem getLast?_rtake {xs : List α} {n : Nat} (h : 0 < n) :
    (xs.rtake n).getLast? = xs.getLast? := by
  rw [List.rtake, List.getLast?_drop]
  split
  · rename_i hle
    obtain rfl : xs = [] := List.eq_nil_of_length_eq_zero (by omega)
    rfl
  · rfl

/-- `xs[i]`. -/
def itemAt (xs : List α) (i : Int) : Except Exn α :=
  let k := if i < 0 then i + xs.length else i
  if h : 0 ≤ k ∧ k < xs.length then .ok (xs.get ⟨k.toNat, by omega⟩) else raise .indexError

theorem itemAt_last {xs : List α} {n : Nat} (default : α) (h0 : 0 < n) (h : n ≤ xs.length) :
    itemAt xs (-n) = .ok (xs.getD (xs.length - n) default) := by
  have hneg : -(n : Int) < 0 := by omega
  have hk : (-(n : Int) + xs.length).toNat = xs.length - n := by omega
  have hlt : xs.length - n < xs.length := by omega
  simp only [itemAt, if_pos hneg]
  rw [dif_pos (by omega), List.getD_eq_getElem _ _ hlt]
  simp only [List.get_eq_getElem, hk]

end Python
