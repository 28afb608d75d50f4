import NexusBackend.Library.RoundRobin
import NexusBackend.Publishers.UsQuotes

/-!
Which positions of its list `UsPublisher` turns to, poll after poll.
-/
namespace NexusBackend

open Python RoundRobin

namespace UsPolling

variable (cfg : Config) (py : Worker.Interpreter)

/-- How many positions a poll takes. -/
def Config.width : Nat := min cfg.batchSize cfg.symbols.length

theorem Config.width_pos : 0 < cfg.width :=
  Nat.lt_min.mpr ⟨cfg.batch_pos, List.length_pos_iff.mpr cfg.symbols_ne⟩

/-- The positions of a batch. -/
def Config.positions (cursor : Nat) : List Nat :=
  (List.range cfg.width).map fun i => (cursor % cfg.symbols.length + i) % cfg.symbols.length

theorem Config.positions_eq (cursor : Nat) :
    cfg.positions cursor = turns cfg.symbols.length cursor cfg.width :=
  turns_mod cfg.symbols.length cursor cfg.width

/-- The batch holds the symbols at its positions. -/
theorem Config.batch_eq (cursor : Nat) :
    cfg.batch cursor = (cfg.positions cursor).map fun i => cfg.symbols.getD i [] := by
  simp only [Config.batch, Config.positions, Config.width, List.map_map, Function.comp_def]

/-! ### What a poll does to the cursor -/

theorem pollSymbol_cursor {w : Surroundings} {p p' : UsPolling} {symbol : Text}
    {tick : Option WireTick} (h : pollSymbol cfg py w p symbol = .ok (p', tick)) :
    p'.cursor = p.cursor := by
  simp only [pollSymbol] at h
  split at h
  · cases h
    rfl
  · cases h
    rfl
  · obtain ⟨quoted, -, h⟩ := bind_eq_ok_iff.mp h
    split at h
    · cases h
      rfl
    · obtain ⟨-, -, h⟩ := bind_eq_ok_iff.mp h
      cases h
      rfl

/-- A batch is worked off in order, up to its end or to the symbol at which the poll raises. -/
theorem pollSymbols_spec (world : Nat → Surroundings) (k : Nat) (p : UsPolling)
    (batch : List Text) :
    (pollSymbols cfg py world k p batch).state.cursor = p.cursor ∧
      (pollSymbols cfg py world k p batch).fetched <+: batch ∧
      ((pollSymbols cfg py world k p batch).raised = none →
        (pollSymbols cfg py world k p batch).fetched = batch) := by
  induction batch generalizing k p with
  | nil => exact ⟨rfl, List.prefix_refl _, fun _ => rfl⟩
  | cons symbol batch ih =>
      rw [pollSymbols]
      split
      · refine ⟨rfl, ⟨batch, rfl⟩, ?_⟩
        intro h
        cases h
      · rename_i p' tick hpoll
        obtain ⟨hcursor, hprefix, hreturned⟩ := ih (k + 1) p'
        refine ⟨hcursor.trans (pollSymbol_cursor cfg py hpoll), ?_, ?_⟩
        · exact List.prefix_cons_inj symbol |>.mpr hprefix
        · exact fun h => congrArg (symbol :: ·) (hreturned h)

theorem advance_cursor (p : UsPolling) :
    (p.advance cfg).cursor = (p.cursor + cfg.width) % cfg.symbols.length := by
  have hlength : (cfg.batch p.cursor).length = cfg.width := by
    rw [Config.batch, List.length_map, List.length_range, Config.width]
  rw [advance, hlength, Nat.mod_add_mod]

/-- The state in front of each poll; the `k`-th poll meets the `k`-th world. -/
def stateAt (worlds : Nat → Nat → Surroundings) (p : UsPolling) : Nat → UsPolling
  | 0 => p
  | k + 1 => (pollOneBatch cfg py (worlds k) (stateAt worlds p k)).state

theorem stateAt_cursor (worlds : Nat → Nat → Surroundings) (p : UsPolling) (k : Nat) :
    (stateAt cfg py worlds p k).cursor ≡ p.cursor + k * cfg.width [MOD cfg.symbols.length] := by
  induction k with
  | zero => exact congrArg (· % cfg.symbols.length) (by rw [Nat.zero_mul]; rfl)
  | succ k ih =>
      have hstep : (stateAt cfg py worlds p (k + 1)).cursor =
          ((stateAt cfg py worlds p k).cursor + cfg.width) % cfg.symbols.length := by
        rw [stateAt, pollOneBatch, (pollSymbols_spec cfg py _ 0 _ _).1, advance_cursor]
      rw [hstep, Nat.succ_mul, ← Nat.add_assoc]
      exact (Nat.mod_modEq _ _).trans (Nat.ModEq.add_right _ ih)

/-- The positions that the `k`-th poll takes. -/
def attempted (worlds : Nat → Nat → Surroundings) (p : UsPolling) (k : Nat) : List Nat :=
  cfg.positions (stateAt cfg py worlds p k).cursor

theorem attempted_eq (worlds : Nat → Nat → Surroundings) (p : UsPolling) (k : Nat) :
    attempted cfg py worlds p k =
      turns cfg.symbols.length (p.cursor + k * cfg.width) cfg.width := by
  have hcursor := stateAt_cursor cfg py worlds p k
  rw [attempted, Config.positions_eq, ← turns_mod, hcursor, turns_mod]

/-- The positions that the polls from the `j`-th on take, `k` polls of them. -/
def attempts (worlds : Nat → Nat → Surroundings) (p : UsPolling) (j k : Nat) : List Nat :=
  (List.range k).flatMap fun i => attempted cfg py worlds p (j + i)

theorem attempts_eq (worlds : Nat → Nat → Surroundings) (p : UsPolling) (j k : Nat) :
    attempts cfg py worlds p j k =
      turns cfg.symbols.length (p.cursor + j * cfg.width) (k * cfg.width) := by
  rw [attempts, ← flatMap_turns]
  simp only [attempted_eq, Nat.add_mul, Nat.add_assoc]

/-- What one poll takes from the list: distinct positions, as many as fit a batch, and it asks
for their symbols in order, for all of them unless it raises. -/
structure TakesBatch (positions : List Nat) (run : BatchRun) : Prop where
  distinct : positions.Nodup
  inside : ∀ i ∈ positions, i < cfg.symbols.length
  length : positions.length = min cfg.batchSize cfg.symbols.length
  fetched : run.fetched <+: positions.map fun i => cfg.symbols.getD i []
  returned : run.raised = none → run.fetched = positions.map fun i => cfg.symbols.getD i []

theorem pollOneBatch_takes (world : Nat → Surroundings) (p : UsPolling) :
    TakesBatch cfg (cfg.positions p.cursor) (pollOneBatch cfg py world p) := by
  have hpos := List.length_pos_iff.mpr cfg.symbols_ne
  obtain ⟨-, hprefix, hreturned⟩ :=
    pollSymbols_spec cfg py world 0 (p.advance cfg) (cfg.batch p.cursor)
  refine ⟨?_, ?_, ?_, ?_, ?_⟩
  · rw [cfg.positions_eq]
    exact nodup_turns _ _ (Nat.min_le_right _ _)
  · rw [cfg.positions_eq]
    exact fun i => turns_lt hpos
  · rw [cfg.positions_eq, length_turns, Config.width]
  · rw [← cfg.batch_eq]
    exact hprefix
  · rw [← cfg.batch_eq]
    exact hreturned

end UsPolling
end NexusBackend
