import NexusBackend.Library.KeyedTable
import NexusBackend.Library.Ranking

/-!
The order that a query asks for. Rows with one key come as the database likes, so an order is any
arrangement of the rows in which the keys ascend.

What does not depend on the order of ties: how many rows there are, the first rows of a cut, and
the rows of a part in which the key tells the rows apart. `DISTINCT ON` keeps the first row of
each part.
-/

structure OrderBy {α κ : Type} [LinearOrder κ] (key : α → κ) where
  arrange : List α → List α
  perm : ∀ xs, (arrange xs).Perm xs
  sorted : ∀ xs, (arrange xs).Pairwise fun a b => key a ≤ key b

namespace OrderBy

variable {α κ : Type} [LinearOrder κ] {key : α → κ}

/-- Ties stay in the order of the rows. -/
def stable (key : α → κ) : OrderBy key where
  arrange := Ranking.ascending key
  perm := Ranking.ascending_perm key
  sorted := Ranking.ascending_sorted key

variable (order : OrderBy key)

theorem mem_arrange {xs : List α} {a : α} : a ∈ order.arrange xs ↔ a ∈ xs :=
  (order.perm xs).mem_iff

theorem length_arrange (xs : List α) : (order.arrange xs).length = xs.length :=
  (order.perm xs).length_eq

/-- A key that tells the rows apart leaves one order. -/
theorem arrange_eq {xs : List α} (hinj : ∀ a ∈ xs, ∀ b ∈ xs, key a = key b → a = b) :
    order.arrange xs = Ranking.ascending key xs :=
  Ranking.eq_ascending key (order.perm xs) (order.sorted xs) hinj

/-- The rows of a part come in their own order, whatever comes between them. -/
theorem filter_arrange {xs : List α} {p : α → Bool}
    (hinj : ∀ a ∈ xs.filter p, ∀ b ∈ xs.filter p, key a = key b → a = b) :
    (order.arrange xs).filter p = Ranking.ascending key (xs.filter p) := by
  apply Ranking.eq_ascending key ((order.perm xs).filter p)
  · exact (order.sorted xs).sublist List.filter_sublist
  · exact hinj

/-- A cut shows a first stretch of each part. -/
theorem filter_take_prefix {xs : List α} {p : α → Bool} (n : Nat)
    (hinj : ∀ a ∈ xs.filter p, ∀ b ∈ xs.filter p, key a = key b → a = b) :
    ((order.arrange xs).take n).filter p <+: Ranking.ascending key (xs.filter p) := by
  rw [← order.filter_arrange hinj]
  exact (List.take_prefix n _).filter p

theorem take_isFirst (n : Nat) (xs : List α) :
    Ranking.IsFirst key n ((order.arrange xs).take n) xs where
  sorted := (order.sorted xs).sublist (List.take_sublist n _)
  length_eq := by rw [List.length_take, order.length_arrange]
  others := by
    refine ⟨(order.arrange xs).drop n, ?_, ?_⟩
    · rw [List.take_append_drop]
      exact order.perm xs
    · intro a ha b hb
      have hsorted := order.sorted xs
      rw [← List.take_append_drop n (order.arrange xs), List.pairwise_append] at hsorted
      exact hsorted.2.2 a ha b hb

/-! ### The first row of each part -/

section
variable {α γ : Type} [DecidableEq γ] (part : α → γ)

/-- `DISTINCT ON (part)`. -/
def distinctOn (xs : List α) : List α := KeyedTable.addAllNew part [] xs

theorem nodup_distinctOn (xs : List α) : ((distinctOn part xs).map part).Nodup := by
  have hempty : (([] : List α).map part).Nodup := List.nodup_nil
  exact KeyedTable.nodup_addAllNew hempty xs

theorem distinctOn_sublist (xs : List α) : (distinctOn part xs).Sublist xs :=
  KeyedTable.addAllNew_sublist xs

variable {part}

theorem filter_eq_find? {xs : List α} (h : (xs.map part).Nodup) (g : γ) :
    xs.filter (fun a => part a = g) = (xs.find? fun a => part a = g).toList := by
  induction xs with
  | nil => rfl
  | cons a xs ih =>
      rw [List.map_cons, List.nodup_cons] at h
      rw [List.filter_cons, List.find?_cons]
      by_cases ha : part a = g
      · have hrest : xs.filter (fun b => part b = g) = [] := by
          rw [List.filter_eq_nil_iff]
          intro b hb hpart
          exact h.1 (List.mem_map.mpr ⟨b, hb, (of_decide_eq_true hpart).trans ha.symm⟩)
        simp [ha, hrest]
      · simp [ha, ih h.2]

/-- What is left of a part is its first row. -/
theorem filter_distinctOn (xs : List α) (g : γ) :
    (distinctOn part xs).filter (fun a => part a = g) =
      (xs.filter fun a => part a = g).head?.toList := by
  rw [filter_eq_find? (nodup_distinctOn part xs), distinctOn, KeyedTable.find?_addAllNew,
    List.nil_append, List.head?_filter]

end

end OrderBy
