import Mathlib.Algebra.BigOperators.Group.List.Basic
import Mathlib.Algebra.Order.Ring.Int
import Mathlib.Data.List.ReduceOption

/-!
A cumulative counter that is read now and then: every reading passes on what was added since
the one before. A reading below the one before is taken for a reset and passes on nothing, and
a poll without a reading reads zero.
-/
namespace Counter

/-- What a reading passes on. -/
def increase (base : Option Int) (reading : Int) : Int :=
  match base with
  | none => 0
  | some b => if b ≤ reading then reading - b else 0

def increases : Option Int → List Int → List Int
  | _, [] => []
  | base, r :: rs => increase base r :: increases (some r) rs

/-- From the first to the last. -/
def span {α : Type*} [Sub α] [Zero α] (xs : List α) : α := xs.getLast?.getD 0 - xs.head?.getD 0

/-- What a gap ahead of a reading counts again, after the reading before the gap. -/
def again : Option Int → Int → Int
  | none, r => max r 0
  | some a, r => max a 0 + max (-r) 0

/-- What gaps count again in all. `last` is the last reading, and `gap` says that polls without
one have followed it. -/
def recounted : Option Int → Bool → List (Option Int) → Int
  | last, gap, [] => if gap then max (-last.getD 0) 0 else 0
  | last, _, none :: xs => recounted last true xs
  | last, gap, some r :: xs => (if gap then again last r else 0) + recounted (some r) false xs

theorem increase_nonneg (base : Option Int) (r : Int) : 0 ≤ increase base r := by
  cases base with
  | none => exact le_rfl
  | some b =>
      simp only [increase]
      split <;> omega

theorem increases_nonneg (base : Option Int) (rs : List Int) : ∀ d ∈ increases base rs, 0 ≤ d := by
  induction rs generalizing base with
  | nil => nofun
  | cons r rs ih => exact List.forall_mem_cons.mpr ⟨increase_nonneg base r, ih (some r)⟩

/-- The readings of a second run go on from the last of the first. -/
theorem increases_append (base : Option Int) (xs ys : List Int) :
    increases base (xs ++ ys) = increases base xs ++ increases (xs.getLast?.or base) ys := by
  induction xs generalizing base with
  | nil => rfl
  | cons x xs ih =>
      have hlast : ((x :: xs).getLast?.or base) = xs.getLast?.or (some x) := by
        cases xs with
        | nil => rfl
        | cons y xs => rw [List.getLast?_cons_cons]; simp [List.getLast?_cons]
      rw [List.cons_append, increases, increases, ih, hlast, List.cons_append]

/-- The base after the last reading and a gap. -/
def base (last : Option Int) (gap : Bool) : Option Int := if gap then some 0 else last

/-- What the gap has passed on when it began. -/
def paid (last : Option Int) (gap : Bool) : Int := if gap then max (-last.getD 0) 0 else 0

theorem span_cons_cons (a b : Int) (xs : List Int) :
    span (a :: b :: xs) = b - a + span (b :: xs) := by
  simp only [span, List.getLast?_cons_cons, List.head?_cons, Option.getD_some]
  omega

/-- A gap begins with what the fall to zero passes on, and adds nothing while it lasts. -/
theorem increase_gap (last : Option Int) (gap : Bool) :
    increase (base last gap) 0 + paid last gap = paid last true := by
  cases gap with
  | true => simp [base, increase, paid]
  | false =>
      cases last with
      | none => simp [base, increase, paid]
      | some a =>
          simp only [base, increase, paid, Option.getD_some, Bool.false_eq_true, if_false, if_true]
          split <;> omega

/-- A reading passes on the way from the last one, and after a gap what the gap counts again. -/
theorem increase_reading (a r : Int) (gap : Bool) (h : a ≤ r) :
    increase (base (some a) gap) r + paid (some a) gap =
      r - a + if gap then again (some a) r else 0 := by
  cases gap with
  | true =>
      simp only [base, increase, paid, again, Option.getD_some, if_true]
      split <;> omega
  | false =>
      simp only [base, increase, paid, Bool.false_eq_true, if_false, if_pos h]

theorem increase_first (r : Int) (gap : Bool) :
    increase (base none gap) r + paid none gap = if gap then again none r else 0 := by
  cases gap with
  | true =>
      simp only [base, increase, paid, again, Option.getD_none, if_true]
      split <;> omega
  | false => simp [base, increase, paid]

/-- What is passed on from any state on: the way to the last reading, and what gaps count
again. -/
theorem sum_increases_from (last : Option Int) (gap : Bool) (xs : List (Option Int))
    (h : (last.toList ++ xs.reduceOption).Pairwise (· ≤ ·)) :
    (increases (base last gap) (xs.map (·.getD 0))).sum + paid last gap =
      span (last.toList ++ xs.reduceOption) + recounted last gap xs := by
  induction xs generalizing last gap with
  | nil =>
      cases last with
      | none => simp [increases, paid, recounted, span, List.reduceOption]
      | some a => simp [increases, paid, recounted, span, List.reduceOption]
  | cons x xs ih =>
      cases x with
      | none =>
          have hgap := increase_gap last gap
          have hrest := ih last true h
          rw [List.map_cons, Option.getD_none, increases, List.sum_cons, recounted,
            List.reduceOption_cons_of_none]
          have hbase : base last true = some 0 := rfl
          rw [hbase] at hrest
          omega
      | some r =>
          rw [List.reduceOption_cons_of_some] at h ⊢
          have hrest := ih (some r) false (h.sublist (List.sublist_append_right _ _))
          have hnext : paid (some r) false = 0 := rfl
          have hbase : base (some r) false = some r := rfl
          rw [hnext, hbase, Option.toList_some, List.singleton_append] at hrest
          rw [List.map_cons, Option.getD_some, increases, List.sum_cons, recounted]
          cases last with
          | none =>
              have hfirst := increase_first r gap
              rw [Option.toList_none, List.nil_append]
              omega
          | some a =>
              have hreading := increase_reading a r gap (List.rel_of_pairwise_cons h
                List.mem_cons_self)
              rw [Option.toList_some, List.singleton_append, span_cons_cons]
              omega

/-- Over readings that do not decrease, the increases add up to the way from the first to the
last, and to what the gaps between them count again. -/
theorem sum_increases {xs : List (Option Int)} (h : xs.reduceOption.Pairwise (· ≤ ·)) :
    (increases none (xs.map (·.getD 0))).sum =
      span xs.reduceOption + recounted none false xs := by
  simpa [base, paid] using sum_increases_from none false xs h

/-- Without a gap nothing is counted again. -/
theorem recounted_eq_zero {xs : List (Option Int)} (h : none ∉ xs) (last : Option Int) :
    recounted last false xs = 0 := by
  induction xs generalizing last with
  | nil => rfl
  | cons x xs ih =>
      rw [List.mem_cons, not_or] at h
      cases x with
      | none => exact absurd rfl h.1
      | some r =>
          rw [recounted, ih h.2]
          rfl

/-- Over readings that do not decrease, the increases add up to the way from the first to the
last. -/
theorem sum_increases_readings {rs : List Int} (h : rs.Pairwise (· ≤ ·)) :
    (increases none rs).sum = span rs := by
  have hsum := @sum_increases (rs.map some) (by rwa [List.reduceOption, List.filterMap_map,
    Function.id_comp, List.filterMap_some])
  have hnone : none ∉ rs.map some := by simp
  rwa [List.map_map, recounted_eq_zero hnone, add_zero, List.reduceOption, List.filterMap_map,
    Function.id_comp, List.filterMap_some, show (fun x : Option Int => x.getD 0) ∘ some = id from
    rfl, List.map_id] at hsum

end Counter
