import Mathlib.Algebra.Order.Floor.Div
import Mathlib.Data.Int.CardIntervalMod
import Mathlib.Data.List.Range

/-!
Turns around a circle of positions: how often each position has its turn, and after how many
turns every one had it.
-/
namespace RoundRobin

/-- The positions of `k` turns on a circle of `n`, from the `c`-th on. -/
def turns (n c k : Nat) : List Nat := (List.range k).map fun i => (c + i) % n

theorem length_turns (n c k : Nat) : (turns n c k).length = k := by
  rw [turns, List.length_map, List.length_range]

theorem turns_mod (n c k : Nat) : turns n (c % n) k = turns n c k := by
  simp only [turns, Nat.mod_add_mod]

theorem turns_append (n c j k : Nat) : turns n c (j + k) = turns n c j ++ turns n (c + j) k := by
  simp only [turns, List.range_add, List.map_append, List.map_map, Function.comp_def,
    Nat.add_assoc]

theorem turns_lt {n c k i : Nat} (hn : 0 < n) (h : i ∈ turns n c k) : i < n := by
  obtain ⟨j, -, rfl⟩ := List.mem_map.mp h
  exact Nat.mod_lt _ hn

/-- No position has two turns before the circle is closed. -/
theorem nodup_turns (n c : Nat) {k : Nat} (h : k ≤ n) : (turns n c k).Nodup := by
  apply List.nodup_range.map_on
  intro i hi j hj hij
  rw [List.mem_range] at hi hj
  have hmod : i ≡ j [MOD n] := Nat.ModEq.add_left_cancel' c hij
  rwa [Nat.ModEq, Nat.mod_eq_of_lt (by omega), Nat.mod_eq_of_lt (by omega)] at hmod

/-- The turns of a position, counted by remainders. -/
theorem count_turns {n i : Nat} (c k : Nat) (hi : i < n) :
    (turns n c k).count i = k / n + if (i + (n - c % n)) % n < k % n then 1 else 0 := by
  have hn : 0 < n := Nat.lt_of_le_of_lt (Nat.zero_le i) hi
  have hturn (j : Nat) : (c + j) % n = i ↔ j ≡ i + (n - c % n) [MOD n] := by
    have hc : c + (i + (n - c % n)) ≡ i [MOD n] := by
      have hsplit : c + (i + (n - c % n)) = i + n * (c / n + 1) := by
        have hdiv := Nat.div_add_mod c n
        have hlt := Nat.mod_lt c hn
        rw [Nat.mul_add, Nat.mul_one]
        omega
      rw [Nat.ModEq, hsplit, Nat.add_mul_mod_self_left]
    have hleft : (c + j) % n = i ↔ c + j ≡ i [MOD n] := by
      rw [Nat.ModEq, Nat.mod_eq_of_lt hi]
    rw [hleft]
    exact ⟨fun h => Nat.ModEq.add_left_cancel' c (h.trans hc.symm),
      fun h => (Nat.ModEq.add_left c h).trans hc⟩
  rw [← Nat.count_modEq_card k hn, turns, List.count_eq_countP, List.countP_map]
  rw [Nat.count]
  apply List.countP_congr
  intro j _
  simpa using hturn j

/-- Two positions never differ by more than one turn. -/
theorem count_turns_le {n i j : Nat} (c k : Nat) (hi : i < n) (hj : j < n) :
    (turns n c k).count i ≤ (turns n c k).count j + 1 := by
  rw [count_turns c k hi, count_turns c k hj]
  split <;> split <;> omega

/-- After `n` turns every position had one. -/
theorem mem_turns {n k i : Nat} (c : Nat) (h : n ≤ k) (hi : i < n) : i ∈ turns n c k := by
  have hone : 0 < k / n := Nat.div_pos h (Nat.lt_of_le_of_lt (Nat.zero_le i) hi)
  rw [← List.count_pos_iff, count_turns c k hi]
  omega

/-! ### Rounds of several turns -/

/-- The turns of the first `k` rounds of `m` turns each. -/
theorem flatMap_turns (n c m k : Nat) :
    (List.range k).flatMap (fun j => turns n (c + j * m) m) = turns n c (k * m) := by
  induction k with
  | zero => rw [Nat.zero_mul]; rfl
  | succ k ih =>
      rw [List.range_succ, List.flatMap_append, ih, Nat.succ_mul, turns_append]
      simp

/-- A circle of `n` is closed by `n ⌈/⌉ m` rounds of `m` turns. -/
theorem le_ceilDiv_mul {m : Nat} (n : Nat) (hm : 0 < m) : n ≤ n ⌈/⌉ m * m := by
  have h : n ≤ m • (n ⌈/⌉ m) := le_smul_ceilDiv hm
  rwa [smul_eq_mul, Nat.mul_comm] at h

end RoundRobin
