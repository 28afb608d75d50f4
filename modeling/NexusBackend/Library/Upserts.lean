import NexusBackend.Library.KeyedTable

/-!
Tables with a primary key, where a row with a taken key takes the place of the row that has it.

After a list of such writes each key has the last row that was written under it, or the row it
had before. To write rows under the same keys once more leaves nothing of the first time.
-/
namespace KeyedTable

section
variable {ρ κ : Type*} [DecidableEq κ] (key : ρ → κ)

/-- The row takes the place of the one with its key, or goes to the end. -/
def putRow (row : ρ) : List ρ → List ρ
  | [] => [row]
  | r :: rows => if key r = key row then row :: rows else r :: putRow row rows

/-- The last row under a key. -/
def lastUnder (k : κ) (rows : List ρ) : Option ρ := rows.reverse.find? fun r => key r = k

variable {key}

theorem keys_putRow (row : ρ) (rows : List ρ) :
    (putRow key row rows).map key = addNew id (rows.map key) (key row) := by
  induction rows with
  | nil => rfl
  | cons r rows ih =>
      rw [putRow, addNew, List.map_id]
      split
      · rename_i hkey
        rw [List.map_cons, List.map_cons, hkey, id, if_pos List.mem_cons_self]
      · rename_i hkey
        rw [List.map_cons, List.map_cons, ih, addNew, List.map_id]
        by_cases hmem : key row ∈ rows.map key
        · rw [id, if_pos hmem, if_pos (List.mem_cons_of_mem _ hmem)]
        · have hnew : key row ∉ key r :: rows.map key :=
            fun h => (List.mem_cons.mp h).elim (fun heq => hkey heq.symm) hmem
          rw [id, if_neg hmem, if_neg hnew, List.cons_append]

theorem mem_putRow {row r : ρ} {rows : List ρ} (h : r ∈ putRow key row rows) :
    r = row ∨ r ∈ rows := by
  induction rows with
  | nil => exact .inl (List.mem_singleton.mp h)
  | cons r' rows ih =>
      rw [putRow] at h
      split at h
      · exact (List.mem_cons.mp h).imp_right (List.mem_cons_of_mem _)
      · rcases List.mem_cons.mp h with rfl | h
        · exact .inr List.mem_cons_self
        · exact (ih h).imp_right (List.mem_cons_of_mem _)

theorem find?_putRow (row : ρ) (rows : List ρ) (k : κ) :
    (putRow key row rows).find? (fun r => key r = k) =
      if key row = k then some row else rows.find? fun r => key r = k := by
  induction rows with
  | nil =>
      rw [putRow, List.find?_singleton]
      by_cases hk : key row = k
      · rw [if_pos (by simpa using hk), if_pos hk]
      · rw [if_neg (by simpa using hk), if_neg hk, List.find?_nil]
  | cons r rows ih =>
      rw [putRow]
      split
      · rename_i hkey
        by_cases hk : key row = k
        · rw [if_pos hk, List.find?_cons_of_pos (by simpa using hk)]
        · rw [if_neg hk, List.find?_cons_of_neg (by simpa using hk),
            List.find?_cons_of_neg (by simpa [hkey] using hk)]
      · rename_i hkey
        by_cases hr : key r = k
        · have hk : ¬ key row = k := fun hk => hkey (hr.trans hk.symm)
          rw [if_neg hk, List.find?_cons_of_pos (by simpa using hr),
            List.find?_cons_of_pos (by simpa using hr)]
        · rw [List.find?_cons_of_neg (by simpa using hr), ih,
            List.find?_cons_of_neg (by simpa using hr)]

theorem lastUnder_cons (row : ρ) (rows : List ρ) (k : κ) :
    lastUnder key k (row :: rows) =
      (lastUnder key k rows).or (if key row = k then some row else none) := by
  rw [lastUnder, List.reverse_cons, List.find?_append, List.find?_singleton]
  simp only [decide_eq_true_eq]
  rfl

theorem lastUnder_eq_none_iff {rows : List ρ} {k : κ} :
    lastUnder key k rows = none ↔ k ∉ rows.map key := by
  rw [lastUnder, List.find?_eq_none]
  constructor
  · intro h hk
    obtain ⟨row, hrow, hkey⟩ := List.mem_map.mp hk
    exact h row (List.mem_reverse.mpr hrow) (by simpa using hkey)
  · intro h row hrow hkey
    exact h (List.mem_map.mpr ⟨row, List.mem_reverse.mp hrow, by simpa using hkey⟩)

theorem mem_of_lastUnder {rows : List ρ} {k : κ} {row : ρ} (h : lastUnder key k rows = some row) :
    row ∈ rows ∧ key row = k :=
  ⟨List.mem_reverse.mp (List.mem_of_find?_eq_some h), by simpa using List.find?_some h⟩

/-- Where the keys are distinct, each row is the last under its own. -/
theorem lastUnder_of_mem {rows : List ρ} (hkeys : (rows.map key).Nodup) {row : ρ}
    (hrow : row ∈ rows) : lastUnder key (key row) rows = some row := by
  cases h : lastUnder key (key row) rows with
  | none => exact absurd (List.mem_map_of_mem hrow) (lastUnder_eq_none_iff.mp h)
  | some last =>
      obtain ⟨hlast, hkey⟩ := mem_of_lastUnder h
      rw [List.inj_on_of_nodup_map hkeys hlast hrow hkey]

end

section
variable {ρ κ : Type*} [DecidableEq κ] {key : ρ → κ}

theorem nodup_addNew {ks : List κ} (h : ks.Nodup) (k : κ) : (addNew id ks k).Nodup := by
  rw [← List.map_id ks] at h
  have hone := nodup_addAllNew h [k]
  rwa [List.map_id] at hone

/-- `INSERT ... ON CONFLICT (key) DO UPDATE` of every column. -/
def upsert (t : KeyedTable key) (row : ρ) : KeyedTable key where
  rows := putRow key row t.rows
  keys_nodup := by
    rw [keys_putRow]
    exact nodup_addNew t.keys_nodup _

def upsertAll (t : KeyedTable key) (rows : List ρ) : KeyedTable key := rows.foldl upsert t

/-- The row of a key. -/
def held (t : KeyedTable key) (k : κ) : Option ρ := t.rows.find? fun r => key r = k

theorem held_eq_some_iff (t : KeyedTable key) {k : κ} {row : ρ} :
    t.held k = some row ↔ row ∈ t.rows ∧ key row = k := by
  constructor
  · intro h
    exact ⟨List.mem_of_find?_eq_some h, by simpa using List.find?_some h⟩
  · rintro ⟨hrow, rfl⟩
    exact (t.mem_rows_iff_find? row).mp hrow

theorem held_eq_none_iff (t : KeyedTable key) {k : κ} : t.held k = none ↔ k ∉ t.rows.map key := by
  rw [held, List.find?_eq_none]
  constructor
  · intro h hk
    obtain ⟨row, hrow, hkey⟩ := List.mem_map.mp hk
    exact h row hrow (by simpa using hkey)
  · intro h row hrow hkey
    exact h (List.mem_map.mpr ⟨row, hrow, by simpa using hkey⟩)

/-- A table is told by the order of its keys and by the row of each. -/
theorem eq_of_held {t t' : KeyedTable key} (hkeys : t.rows.map key = t'.rows.map key)
    (hheld : ∀ k, t.held k = t'.held k) : t = t' := by
  have hrows : t.rows = t'.rows := by
    apply List.ext_getElem
    · simpa using congrArg List.length hkeys
    intro i hi hi'
    have hkey : key t.rows[i] = key t'.rows[i] := by
      have := congrArg (fun ks => ks[i]?) hkeys
      simpa [hi, hi'] using this
    have hleft := t.held_eq_some_iff.mpr ⟨List.getElem_mem hi, rfl⟩
    have hright := t'.held_eq_some_iff.mpr ⟨List.getElem_mem hi', hkey.symm⟩
    rw [hheld, hright] at hleft
    exact (Option.some.inj hleft).symm
  cases t
  cases t'
  cases hrows
  rfl

theorem upsertAll_cons (t : KeyedTable key) (row : ρ) (rows : List ρ) :
    t.upsertAll (row :: rows) = (t.upsert row).upsertAll rows := rfl

theorem upsertAll_append (t : KeyedTable key) (rows more : List ρ) :
    t.upsertAll (rows ++ more) = (t.upsertAll rows).upsertAll more := List.foldl_append

theorem held_upsert (t : KeyedTable key) (row : ρ) (k : κ) :
    (t.upsert row).held k = if key row = k then some row else t.held k :=
  find?_putRow row t.rows k

/-- Each key has the last row that was written under it, or the one it had. -/
theorem held_upsertAll (t : KeyedTable key) (rows : List ρ) (k : κ) :
    (t.upsertAll rows).held k = (lastUnder key k rows).or (t.held k) := by
  induction rows generalizing t with
  | nil => rfl
  | cons row rows ih =>
      rw [upsertAll_cons, ih, lastUnder_cons, held_upsert, Option.or_assoc]
      split
      · rfl
      · rfl

theorem keys_upsertAll (t : KeyedTable key) (rows : List ρ) :
    (t.upsertAll rows).rows.map key = addAllNew id (t.rows.map key) (rows.map key) := by
  induction rows generalizing t with
  | nil => rfl
  | cons row rows ih =>
      have hone : (t.upsert row).rows.map key = addNew id (t.rows.map key) (key row) :=
        keys_putRow row t.rows
      rw [upsertAll_cons, ih, hone]
      rfl

/-- What is written under the same keys again leaves nothing of the first time. -/
theorem upsertAll_again (t : KeyedTable key) {rows again : List ρ}
    (hkeys : again.map key = rows.map key) :
    (t.upsertAll rows).upsertAll again = t.upsertAll again := by
  apply eq_of_held
  · rw [keys_upsertAll, keys_upsertAll, keys_upsertAll, hkeys]
    apply addAllNew_of_taken
    intro k hk
    rw [List.map_id, ← List.map_id (addAllNew id _ _)]
    exact mem_keys_addAllNew.mpr (.inr (by simpa using hk))
  · intro k
    rw [held_upsertAll, held_upsertAll, held_upsertAll]
    cases hlast : lastUnder key k again with
    | some row => rfl
    | none =>
        rw [lastUnder_eq_none_iff, hkeys] at hlast
        rw [lastUnder_eq_none_iff.mpr hlast]
        rfl

end
end KeyedTable
