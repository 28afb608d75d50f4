import NexusBackend.Library.KeyedTable
import Mathlib.Data.List.Enum

/-!
The first entry of each key in a list: the entries that no earlier one shares its key with. It
is what is left when the entries are added one by one to a list that takes each key once.
-/
namespace Python

variable {ρ κ : Type*} [DecidableEq κ] (key : ρ → κ)

/-- The entries whose key no entry before them has. -/
def firstOccurrences (rows : List ρ) : List ρ :=
  (rows.zipIdx.filter fun entry => key entry.1 ∉ (rows.take entry.2).map key).map Prod.fst

theorem firstOccurrences_concat (rows : List ρ) (row : ρ) :
    firstOccurrences key (rows ++ [row]) =
      firstOccurrences key rows ++ if key row ∈ rows.map key then [] else [row] := by
  have hall : (rows ++ [row]).take rows.length = rows := List.take_left
  have hold : (rows.zipIdx.filter fun entry =>
      key entry.1 ∉ ((rows ++ [row]).take entry.2).map key) =
        rows.zipIdx.filter fun entry => key entry.1 ∉ (rows.take entry.2).map key := by
    apply List.filter_congr
    intro entry hentry
    have hlt := List.snd_lt_of_mem_zipIdx hentry
    rw [List.take_append_of_le_length (by omega)]
  rw [firstOccurrences, List.zipIdx_append, List.filter_append, hold, List.map_append]
  congr 1
  simp only [List.zipIdx_singleton, Nat.zero_add, List.filter_singleton, hall]
  by_cases hrow : key row ∈ rows.map key
  · simp [hrow]
  · simp [hrow]

/-- Adding entries one by one keeps the first of each key. -/
theorem addAllNew_nil (rows : List ρ) :
    KeyedTable.addAllNew key [] rows = firstOccurrences key rows := by
  induction rows using List.reverseRecOn with
  | nil => rfl
  | append_singleton rows row ih =>
      rw [KeyedTable.addAllNew_concat, KeyedTable.addNew, firstOccurrences_concat, ← ih]
      simp only [KeyedTable.mem_keys_addAllNew, List.map_nil, List.not_mem_nil, false_or]
      split
      · rw [List.append_nil]
      · rfl

end Python
