import Mathlib

/-!
Groups of rows that share a key, as `GROUP BY` makes them: one for each key that occurs, with all
the rows of it.

Every row is in the group of its key and in no other, so a sum over all rows is the sum of the
sums of the groups.
-/
namespace Grouping

variable {α κ : Type} [DecidableEq κ] (key : α → κ)

/-- The rows of a key. -/
def group (k : κ) (xs : List α) : List α := xs.filter fun a => key a = k

/-- `GROUP BY key`. -/
def groups (xs : List α) : List (κ × List α) :=
  (xs.map key).dedup.map fun k => (k, group key k xs)

variable {key}

theorem mem_group {k : κ} {xs : List α} {a : α} : a ∈ group key k xs ↔ a ∈ xs ∧ key a = k := by
  simp [group]

theorem mem_groups {xs : List α} {g : κ × List α} :
    g ∈ groups key xs ↔ g.1 ∈ xs.map key ∧ g.2 = group key g.1 xs := by
  rw [groups, List.mem_map]
  constructor
  · rintro ⟨k, hk, rfl⟩
    exact ⟨List.mem_dedup.mp hk, rfl⟩
  · intro h
    exact ⟨g.1, List.mem_dedup.mpr h.1, Prod.ext rfl h.2.symm⟩

theorem keys_groups (xs : List α) : (groups key xs).map Prod.fst = (xs.map key).dedup := by
  rw [groups, List.map_map]
  exact List.map_id _

theorem keys_groups_nodup (xs : List α) : ((groups key xs).map Prod.fst).Nodup := by
  rw [keys_groups]
  exact List.nodup_dedup _

/-- No group is empty. -/
theorem group_ne_nil {xs : List α} {g : κ × List α} (h : g ∈ groups key xs) : g.2 ≠ [] := by
  obtain ⟨hk, hg⟩ := mem_groups.mp h
  obtain ⟨a, ha, hkey⟩ := List.mem_map.mp hk
  rw [hg]
  exact List.ne_nil_of_mem (mem_group.mpr ⟨ha, hkey⟩)

/-- The rows of keys that are all there are counted once each. -/
theorem sum_over_keys {M : Type} [AddCommMonoid M] (f : α → M) {ks : List κ} (hks : ks.Nodup)
    {xs : List α} (h : ∀ a ∈ xs, key a ∈ ks) :
    (ks.map fun k => ((group key k xs).map f).sum).sum = (xs.map f).sum := by
  induction xs with
  | nil => simp [group]
  | cons a xs ih =>
      rw [List.forall_mem_cons] at h
      have hone : (ks.map fun k => if key a = k then f a else 0).sum = f a := by
        rw [List.sum_map_eq_nsmul_single (key a) _ fun k hk _ => if_neg (Ne.symm hk),
          List.count_eq_one_of_mem hks h.1, one_nsmul, if_pos rfl]
      have hsplit (k : κ) : ((group key k (a :: xs)).map f).sum =
          (if key a = k then f a else 0) + ((group key k xs).map f).sum := by
        by_cases hk : key a = k
        · simp [group, hk]
        · simp [group, hk]
      simp only [hsplit]
      rw [List.sum_map_add, hone, ih h.2, List.map_cons, List.sum_cons]

theorem sum_groups {M : Type} [AddCommMonoid M] (f : α → M) (xs : List α) :
    ((groups key xs).map fun g => (g.2.map f).sum).sum = (xs.map f).sum := by
  rw [groups, List.map_map]
  exact sum_over_keys f (List.nodup_dedup _)
    fun a ha => List.mem_dedup.mpr (List.mem_map_of_mem ha)

theorem sum_map_eq_countP (p : α → Bool) (xs : List α) :
    (xs.map fun a => if p a then 1 else 0).sum = xs.countP p := by
  induction xs with
  | nil => rfl
  | cons a xs ih =>
      rw [List.map_cons, List.sum_cons, ih, List.countP_cons, Nat.add_comm]

/-- The counts of the groups make up the count of all. -/
theorem countP_groups (p : α → Bool) (xs : List α) :
    ((groups key xs).map fun g => g.2.countP p).sum = xs.countP p := by
  have h : ((groups key xs).map fun g => (g.2.map fun a => if p a then 1 else 0).sum).sum =
      (xs.map fun a => if p a then 1 else 0).sum := sum_groups _ xs
  simpa only [sum_map_eq_countP] using h

theorem length_groups (xs : List α) :
    ((groups key xs).map fun g => g.2.length).sum = xs.length := by
  have h : ((groups key xs).map fun g => g.2.countP fun _ => true).sum = xs.countP fun _ => true :=
    countP_groups _ xs
  simpa only [List.countP_true] using h

end Grouping
