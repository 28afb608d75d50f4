import Mathlib.Algebra.BigOperators.Group.List.Basic
import Mathlib.Algebra.Order.Ring.Int
import Mathlib.Tactic.Linarith

/-!
Nesting counted along a list: each element opens, closes or leaves the depth by its weight,
and a list is closed where the depth stays above zero up to the end and is zero there.
-/
namespace Nesting

variable {α : Type*} (weight : α → Int)

/-- How much deeper the end of the list is than its start. -/
def net (s : List α) : Int := (s.map weight).sum

@[simp] theorem net_nil : net weight [] = 0 := rfl

@[simp] theorem net_cons (c : α) (s : List α) :
    net weight (c :: s) = weight c + net weight s := by
  rw [net, net, List.map_cons, List.sum_cons]

@[simp] theorem net_append (s t : List α) :
    net weight (s ++ t) = net weight s + net weight t := by
  rw [net, net, net, List.map_append, List.sum_append]

/-- From a depth, the list comes to zero at its end and not before. -/
structure ClosesFrom (depth : Int) (s : List α) : Prop where
  zero : depth + net weight s = 0
  pos : ∀ p q, s = p ++ q → p ≠ [] → q ≠ [] → 0 < depth + net weight p

/-- The list opens at its first element and closes at its last. -/
abbrev Closed (s : List α) : Prop := ClosesFrom weight 0 s

variable {weight} {depth : Int} {s : List α}

theorem closesFrom_singleton {c : α} (h : depth + weight c = 0) :
    ClosesFrom weight depth [c] where
  zero := by simpa using h
  pos := by
    intro p q heq hp hq
    rw [List.singleton_eq_append_iff] at heq
    obtain ⟨rfl, -⟩ | ⟨-, rfl⟩ := heq
    · exact absurd rfl hp
    · exact absurd rfl hq

theorem ClosesFrom.cons {c : α} (hpos : 0 < depth + weight c)
    (h : ClosesFrom weight (depth + weight c) s) : ClosesFrom weight depth (c :: s) where
  zero := by
    rw [net_cons, ← add_assoc]
    exact h.zero
  pos := by
    intro p q heq hp hq
    obtain ⟨d, p, rfl⟩ := List.exists_cons_of_ne_nil hp
    rw [List.cons_append, List.cons.injEq] at heq
    obtain ⟨rfl, heq⟩ := heq
    rw [net_cons, ← add_assoc]
    by_cases hnil : p = []
    · rw [hnil, net_nil, add_zero]
      exact hpos
    · exact h.pos p q heq hnil hq

theorem ClosesFrom.tail {c : α} (h : ClosesFrom weight depth (c :: s)) (hs : s ≠ []) :
    0 < depth + weight c ∧ ClosesFrom weight (depth + weight c) s := by
  have hfirst := h.pos [c] s rfl (List.cons_ne_nil _ _) hs
  rw [net_cons, net_nil, add_zero] at hfirst
  refine ⟨hfirst, ⟨?_, fun p q heq _ hq => ?_⟩⟩
  · rw [add_assoc, ← net_cons]
    exact h.zero
  · rw [add_assoc, ← net_cons]
    exact h.pos (c :: p) q (by rw [heq, List.cons_append]) (List.cons_ne_nil _ _) hq

end Nesting
