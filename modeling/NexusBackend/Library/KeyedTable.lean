import Mathlib.Data.List.Induction
import Mathlib.Data.List.Nodup

/-!
Tables with a primary key, to which a row is added where its key is not taken and is
dropped where it is. Rows are neither changed nor deleted here.

The same for plain lists, whose rows may share a key from the start.
-/

structure KeyedTable {ρ κ : Type*} (key : ρ → κ) where
  rows : List ρ
  keys_nodup : (rows.map key).Nodup

namespace KeyedTable

variable {ρ κ : Type*} {key : ρ → κ}

def empty : KeyedTable key := ⟨[], List.nodup_nil⟩

section
variable [DecidableEq κ]

/-- `INSERT ... ON CONFLICT (key) DO NOTHING`. -/
def insert (t : KeyedTable key) (row : ρ) : KeyedTable key :=
  if h : key row ∈ t.rows.map key then t
  else
    { rows := t.rows ++ [row]
      keys_nodup := by
        rw [List.map_append, List.map_singleton, List.nodup_append]
        refine ⟨t.keys_nodup, List.nodup_singleton _, ?_⟩
        intro k hk k' hk' heq
        rw [heq, List.mem_singleton.mp hk'] at hk
        exact h hk }

def insertAll (t : KeyedTable key) (rows : List ρ) : KeyedTable key := rows.foldl insert t

theorem insertAll_append (t : KeyedTable key) (rows more : List ρ) :
    t.insertAll (rows ++ more) = (t.insertAll rows).insertAll more := List.foldl_append

theorem insert_rows_of_new {t : KeyedTable key} {row : ρ} (h : key row ∉ t.rows.map key) :
    (t.insert row).rows = t.rows ++ [row] := by
  rw [insert, dif_neg h]

theorem length_insert_le (t : KeyedTable key) (row : ρ) :
    (t.insert row).rows.length ≤ t.rows.length + 1 := by
  rw [insert]
  split
  · exact Nat.le_succ _
  · have hlen : (t.rows ++ [row]).length = t.rows.length + 1 := List.length_append
    exact Nat.le_of_eq hlen

theorem length_insertAll_le (t : KeyedTable key) (rows : List ρ) :
    (t.insertAll rows).rows.length ≤ t.rows.length + rows.length := by
  induction rows generalizing t with
  | nil => exact Nat.le_refl _
  | cons row rows ih =>
      have hone := t.length_insert_le row
      have hrest := ih (t.insert row)
      rw [insertAll, List.foldl_cons, List.length_cons]
      change ((t.insert row).insertAll rows).rows.length ≤ _
      omega

/-- Rows with keys of their own all go in. -/
theorem insertAll_rows {t : KeyedTable key} {rows : List ρ}
    (h : ((t.rows ++ rows).map key).Nodup) : (t.insertAll rows).rows = t.rows ++ rows := by
  induction rows generalizing t with
  | nil => exact (List.append_nil _).symm
  | cons row rows ih =>
      have hnew : key row ∉ t.rows.map key := by
        rw [List.map_append, List.map_cons] at h
        intro hmem
        exact (List.nodup_append.mp h).2.2 _ hmem _ List.mem_cons_self rfl
      have hrows := insert_rows_of_new hnew
      have hsplit : t.rows ++ row :: rows = (t.insert row).rows ++ rows := by
        rw [hrows, List.append_assoc, List.singleton_append]
      rw [hsplit] at h ⊢
      exact ih h

/-- Under a key the table holds the first row that was offered. -/
theorem find?_insert (t : KeyedTable key) (row : ρ) (k : κ) :
    (t.insert row).rows.find? (fun r => key r = k) =
      (t.rows ++ [row]).find? (fun r => key r = k) := by
  rw [insert]
  split
  · rename_i htaken
    rw [List.find?_append]
    by_cases hk : key row = k
    · obtain ⟨held, hheld, hkey⟩ := List.mem_map.mp htaken
      have hfound : (t.rows.find? fun r => key r = k).isSome = true :=
        List.find?_isSome.mpr ⟨held, hheld, by simp [hkey, hk]⟩
      obtain ⟨first, hfirst⟩ := Option.isSome_iff_exists.mp hfound
      rw [hfirst, Option.some_or]
    · rw [List.find?_singleton, if_neg (by simpa using hk), Option.or_none]
  · rfl

theorem find?_insertAll (t : KeyedTable key) (rows : List ρ) (k : κ) :
    (t.insertAll rows).rows.find? (fun r => key r = k) =
      (t.rows ++ rows).find? (fun r => key r = k) := by
  induction rows generalizing t with
  | nil => rw [List.append_nil]; rfl
  | cons row rows ih =>
      change ((t.insert row).insertAll rows).rows.find? _ = _
      rw [ih, List.find?_append, find?_insert, ← List.find?_append, List.append_assoc,
        List.singleton_append]

theorem mem_rows_iff_find? (t : KeyedTable key) (row : ρ) :
    row ∈ t.rows ↔ t.rows.find? (fun r => key r = key row) = some row := by
  constructor
  · intro hrow
    have hfound : (t.rows.find? fun r => key r = key row).isSome = true :=
      List.find?_isSome.mpr ⟨row, hrow, by simp⟩
    obtain ⟨first, hfirst⟩ := Option.isSome_iff_exists.mp hfound
    have hkey : key first = key row := by simpa using List.find?_some hfirst
    rw [hfirst, List.inj_on_of_nodup_map t.keys_nodup (List.mem_of_find?_eq_some hfirst) hrow hkey]
  · exact List.mem_of_find?_eq_some

/-- A row that was offered is in the table where it was the first of its key. -/
theorem mem_insertAll_iff (t : KeyedTable key) (rows : List ρ) (row : ρ) :
    row ∈ (t.insertAll rows).rows ↔
      (t.rows ++ rows).find? (fun r => key r = key row) = some row := by
  rw [mem_rows_iff_find?, find?_insertAll]

end

/-! ### Plain lists -/

section
variable [DecidableEq κ] (key : ρ → κ)

/-- The row goes to the end of the list unless its key is taken. -/
def addNew (rows : List ρ) (row : ρ) : List ρ :=
  if key row ∈ rows.map key then rows else rows ++ [row]

def addAllNew (rows more : List ρ) : List ρ := more.foldl (addNew key) rows

variable {key}

theorem addAllNew_append (rows more most : List ρ) :
    addAllNew key rows (more ++ most) = addAllNew key (addAllNew key rows more) most :=
  List.foldl_append

theorem addAllNew_cons (rows more : List ρ) (row : ρ) :
    addAllNew key rows (row :: more) = addAllNew key (addNew key rows row) more := rfl

theorem addAllNew_concat (rows more : List ρ) (row : ρ) :
    addAllNew key rows (more ++ [row]) = addNew key (addAllNew key rows more) row :=
  addAllNew_append rows more [row]

theorem mem_addAllNew {rows more : List ρ} {row : ρ} (h : row ∈ addAllNew key rows more) :
    row ∈ rows ∨ row ∈ more := by
  induction more using List.reverseRecOn with
  | nil => exact .inl h
  | append_singleton more last ih =>
      rw [addAllNew_concat, addNew] at h
      split at h
      · exact (ih h).imp_right (List.mem_append_left _)
      · rcases List.mem_append.mp h with h | h
        · exact (ih h).imp_right (List.mem_append_left _)
        · exact .inr (List.mem_append_right _ h)

theorem addAllNew_sublist (more : List ρ) : (addAllNew key [] more).Sublist more := by
  induction more using List.reverseRecOn with
  | nil => exact List.Sublist.refl _
  | append_singleton more last ih =>
      rw [addAllNew_concat, addNew]
      split
      · exact ih.trans (List.sublist_append_left _ _)
      · exact ih.append (List.Sublist.refl _)

/-- Every key that is offered is taken in the end. -/
theorem mem_keys_addAllNew {rows more : List ρ} {k : κ} :
    k ∈ (addAllNew key rows more).map key ↔ k ∈ rows.map key ∨ k ∈ more.map key := by
  induction more using List.reverseRecOn with
  | nil => simp [addAllNew]
  | append_singleton more last ih =>
      rw [addAllNew_concat, addNew, List.map_append, List.map_singleton, List.mem_append,
        List.mem_singleton, ← or_assoc, ← ih]
      split
      · rename_i htaken
        refine ⟨.inl, ?_⟩
        rintro (h | rfl)
        · exact h
        · exact htaken
      · rw [List.map_append, List.map_singleton, List.mem_append, List.mem_singleton]

/-- Under a key the list holds the first row that was there or was offered. -/
theorem find?_addAllNew (rows more : List ρ) (k : κ) :
    (addAllNew key rows more).find? (fun r => key r = k) =
      (rows ++ more).find? (fun r => key r = k) := by
  induction more using List.reverseRecOn with
  | nil => rw [List.append_nil]; rfl
  | append_singleton more last ih =>
      rw [addAllNew_concat, ← List.append_assoc, List.find?_append, ← ih, addNew]
      split
      · rename_i htaken
        by_cases hk : key last = k
        · obtain ⟨held, hheld, hkey⟩ := List.mem_map.mp htaken
          have hfound : ((addAllNew key rows more).find? fun r => key r = k).isSome = true :=
            List.find?_isSome.mpr ⟨held, hheld, by simp [hkey, hk]⟩
          obtain ⟨first, hfirst⟩ := Option.isSome_iff_exists.mp hfound
          rw [hfirst, Option.some_or]
        · rw [List.find?_singleton, if_neg (by simpa using hk), Option.or_none]
      · rw [List.find?_append]

theorem nodup_addAllNew {rows : List ρ} (h : (rows.map key).Nodup) (more : List ρ) :
    ((addAllNew key rows more).map key).Nodup := by
  induction more using List.reverseRecOn with
  | nil => exact h
  | append_singleton more last ih =>
      rw [addAllNew_concat, addNew]
      split
      · exact ih
      · rename_i hnew
        rw [List.map_append, List.map_singleton, List.nodup_append]
        refine ⟨ih, List.nodup_singleton _, ?_⟩
        rintro k hk k' hk' rfl
        rw [List.mem_singleton.mp hk'] at hk
        exact hnew hk

/-- Rows whose keys are all taken change nothing. -/
theorem addAllNew_of_taken {rows more : List ρ} (h : ∀ row ∈ more, key row ∈ rows.map key) :
    addAllNew key rows more = rows := by
  induction more with
  | nil => rfl
  | cons row more ih =>
      rw [addAllNew, List.foldl_cons, addNew, if_pos (h row List.mem_cons_self)]
      exact ih fun row hrow => h row (List.mem_cons_of_mem _ hrow)

/-- What is added to a list is what would be added to an empty one, less the keys it has. -/
theorem addAllNew_eq_append (rows more : List ρ) :
    addAllNew key rows more =
      rows ++ (addAllNew key [] more).filter fun row => key row ∉ rows.map key := by
  induction more using List.reverseRecOn with
  | nil => simp [addAllNew]
  | append_singleton more last ih =>
      have htaken : key last ∈ (addAllNew key rows more).map key ↔
          key last ∈ rows.map key ∨ key last ∈ more.map key := mem_keys_addAllNew
      have hempty : key last ∈ (addAllNew key [] more).map key ↔ key last ∈ more.map key :=
        mem_keys_addAllNew.trans (or_iff_right List.not_mem_nil)
      rw [addAllNew_concat, addAllNew_concat, addNew, addNew]
      by_cases hold : key last ∈ rows.map key
      · rw [if_pos (htaken.mpr (.inl hold)), ih]
        split
        · rfl
        · rw [List.filter_append, List.filter_singleton]
          simp [hold]
      · by_cases hmore : key last ∈ more.map key
        · rw [if_pos (htaken.mpr (.inr hmore)), if_pos (hempty.mpr hmore), ih]
        · rw [if_neg fun h => (htaken.mp h).elim hold hmore, if_neg fun h => hmore (hempty.mp h),
            ih, List.filter_append, List.filter_singleton, decide_eq_true hold, List.append_assoc]
          rfl

end

/-! ### The row of a key -/

/-- In two lists that correspond, keys included, the first rows of a key do. -/
theorem rel_find? {α β : Type*} {R : α → β → Prop} {xs : List α} {ys : List β}
    (h : List.Forall₂ R xs ys) {f : α → Bool} {g : β → Bool} (hkey : ∀ x y, R x y → f x = g y) :
    Option.Rel R (xs.find? f) (ys.find? g) := by
  induction h with
  | nil => exact .none
  | cons hx hxs ih =>
      rw [List.find?_cons, List.find?_cons, hkey _ _ hx]
      split
      · exact .some hx
      · exact ih

/-- A selection that keeps the first row of a kind leaves it the first. -/
theorem find?_filter_of_find? {α : Type*} {xs : List α} {f g : α → Bool} {a : α}
    (h : xs.find? f = some a) (hg : g a = true) : (xs.filter g).find? f = some a := by
  obtain ⟨ha, before, behind, rfl, hbefore⟩ := List.find?_eq_some_iff_append.mp h
  refine List.find?_eq_some_iff_append.mpr ⟨ha, before.filter g, behind.filter g, ?_, ?_⟩
  · rw [List.filter_append, List.filter_cons_of_pos hg]
  · intro x hx
    exact hbefore x (List.mem_of_mem_filter hx)

end KeyedTable
