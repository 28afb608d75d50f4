import NexusBackend.Library.LastEntries
import NexusBackend.Trading.Context

/-!
The windows of a `TickContext` against everything that was ever recorded.
-/
namespace NexusBackend

open Python

/-- Everything that was recorded for the symbol. -/
def historyOf (symbol : Text) (ticks : List Tick) : List Tick :=
  ticks.filter fun tick => tick.symbol = symbol

theorem historyOf_append (symbol : Text) (ticks more : List Tick) :
    historyOf symbol (ticks ++ more) = historyOf symbol ticks ++ historyOf symbol more :=
  List.filter_append ..

theorem historyOf_self (tick : Tick) : historyOf tick.symbol [tick] = [tick] := by
  simp [historyOf]

theorem historyOf_historyOf (symbol : Text) (ticks : List Tick) :
    historyOf symbol (historyOf symbol ticks) = historyOf symbol ticks := by
  simp [historyOf]

namespace TickContext

/-- `record_many`. -/
def recordMany (c : TickContext) (ticks : List Tick) : TickContext := ticks.foldl record c

/-- The window of a symbol, empty where there is none. -/
def bucket (c : TickContext) (symbol : Text) : List Tick := (c.bySymbol.lookup symbol).getD []

def latest (c : TickContext) (symbol : Text) : Option Tick := (c.bucket symbol).getLast?

theorem recordMany_concat (c : TickContext) (ticks : List Tick) (tick : Tick) :
    c.recordMany (ticks ++ [tick]) = (c.recordMany ticks).record tick := by
  rw [recordMany, List.foldl_append]
  rfl

theorem make_fresh {n : Int} {c : TickContext} (h : make n = .ok c) :
    c.bySymbol = ∅ ∧ (c.maxWindow : Int) = n := by
  rw [make] at h
  split at h
  · obtain rfl := Except.ok.inj h
    exact ⟨rfl, by simp only [Int.toNat_of_nonneg (show (0 : Int) ≤ n by omega)]⟩
  · cases h

/-! ### What one record does -/

theorem bucket_record_self (c : TickContext) (tick : Tick) :
    (c.record tick).bucket tick.symbol =
      (c.bucket tick.symbol ++ [tick]).rtake c.maxWindow := by
  simp only [bucket, record, Finmap.lookup_insert]
  rfl

theorem bucket_record_other (c : TickContext) {tick : Tick} {symbol : Text}
    (h : tick.symbol ≠ symbol) : (c.record tick).bucket symbol = c.bucket symbol := by
  simp only [bucket, record, Finmap.lookup_insert_of_ne _ (Ne.symm h)]

/-! ### Windows and histories -/

/-- Every window holds the end of its symbol's history. -/
structure Holds (c : TickContext) (n : Nat) (ticks : List Tick) : Prop where
  maxWindow : c.maxWindow = n
  bucket : ∀ symbol, c.bucket symbol = (historyOf symbol ticks).rtake n

theorem holds_fresh {c : TickContext} (h : c.bySymbol = ∅) : c.Holds c.maxWindow [] where
  maxWindow := rfl
  bucket symbol := by
    rw [TickContext.bucket, h]
    simp [historyOf]

theorem Holds.record {c : TickContext} {n : Nat} {ticks : List Tick} (h : c.Holds n ticks)
    (tick : Tick) : (c.record tick).Holds n (ticks ++ [tick]) where
  maxWindow := h.maxWindow
  bucket symbol := by
    rw [historyOf_append]
    by_cases hs : tick.symbol = symbol
    · subst hs
      rw [bucket_record_self, h.bucket, h.maxWindow, historyOf_self, rtake_push]
    · have hnone : historyOf symbol [tick] = [] := by simp [historyOf, hs]
      rw [bucket_record_other c hs, h.bucket, hnone, List.append_nil]

theorem Holds.recordMany {c : TickContext} {n : Nat} {ticks : List Tick} (h : c.Holds n ticks)
    (more : List Tick) : (c.recordMany more).Holds n (ticks ++ more) := by
  induction more using List.reverseRecOn with
  | nil =>
      rw [List.append_nil]
      exact h
  | append_singleton more tick ih =>
      rw [recordMany_concat, ← List.append_assoc]
      exact ih.record tick

theorem recordMany_holds {c : TickContext} (h : c.bySymbol = ∅) (ticks : List Tick) :
    (c.recordMany ticks).Holds c.maxWindow ticks :=
  (holds_fresh h).recordMany ticks

/-- Zero ticks are the whole window. -/
theorem recentTicks_zero (c : TickContext) (symbol : Text) :
    c.recentTicks symbol (some 0) = c.recentTicks symbol none := by
  change (if ((c.bucket symbol).length : Int) ≤ 0 then c.bucket symbol
    else (c.bucket symbol).drop 0) = c.bucket symbol
  rw [List.drop_zero, ite_self]

section
variable {c : TickContext} {m : Nat} {ticks : List Tick} (h : c.Holds m ticks) (symbol : Text)
include h

theorem Holds.recentTicks_none :
    c.recentTicks symbol none = (historyOf symbol ticks).rtake m := h.bucket symbol

/-- A positive number of ticks is cut from the end of the history. -/
theorem Holds.recentTicks_pos {n : Nat} (hn : 0 < n) :
    c.recentTicks symbol (some n) = (historyOf symbol ticks).rtake (min n m) := by
  have hbucket := h.bucket symbol
  change (if ((c.bucket symbol).length : Int) ≤ n then c.bucket symbol
    else lastOf n (c.bucket symbol)) = _
  have hpos : ¬ (n : Int) ≤ 0 := by omega
  rw [← rtake_rtake, ← hbucket]
  split
  · rename_i hle
    rw [rtake_of_length_le (by omega)]
  · rw [lastOf, if_neg hpos, Int.toNat_natCast]
    rfl

theorem Holds.latest (hm : 0 < m) : c.latest symbol = (historyOf symbol ticks).getLast? := by
  rw [TickContext.latest, h.bucket, getLast?_rtake hm]

end

/-! ### What the windows promise -/

/-- What is read of the symbol's window is the end of its history, as long as asked for, and the
ticks of other symbols make no difference. -/
structure Windowed (fresh : TickContext) (ticks : List Tick) (symbol : Text) (n : Nat) :
    Prop where
  recent : (fresh.recordMany ticks).recentTicks symbol (some n) =
    (historyOf symbol ticks).rtake (min n (min fresh.maxWindow (historyOf symbol ticks).length))
  unbounded : (fresh.recordMany ticks).recentTicks symbol none =
    (historyOf symbol ticks).rtake (min fresh.maxWindow (historyOf symbol ticks).length)
  latest : (fresh.recordMany ticks).latest symbol = (historyOf symbol ticks).getLast? ∧
    (fresh.recordMany ticks).latest symbol =
      ((fresh.recordMany ticks).recentTicks symbol none).getLast?
  alone : let own := fresh.recordMany (historyOf symbol ticks)
    own.recentTicks symbol (some n) = (fresh.recordMany ticks).recentTicks symbol (some n) ∧
      own.recentTicks symbol none = (fresh.recordMany ticks).recentTicks symbol none ∧
      own.latest symbol = (fresh.recordMany ticks).latest symbol

/-- Two contexts with the same history of a symbol show the same of it. -/
theorem Holds.same {c d : TickContext} {m : Nat} {ticks more : List Tick} (hc : c.Holds m ticks)
    (hd : d.Holds m more) {symbol : Text} (h : historyOf symbol ticks = historyOf symbol more) :
    c.bucket symbol = d.bucket symbol := by
  rw [hc.bucket, hd.bucket, h]

/-- The windows keep their promise for every `n` but zero, and for zero where nothing of the
symbol was recorded. -/
theorem windowed_iff {maxWindow : Int} {fresh : TickContext} (h : make maxWindow = .ok fresh)
    (ticks : List Tick) (symbol : Text) (n : Nat) :
    fresh.Windowed ticks symbol n ↔ (n = 0 → historyOf symbol ticks = []) := by
  have hholds := recordMany_holds (make_fresh h).1 ticks
  have hpos : 0 < fresh.maxWindow := Nat.lt_of_lt_of_le Nat.zero_lt_two fresh.maxWindow_ge
  have hsame := hholds.same (recordMany_holds (make_fresh h).1 (historyOf symbol ticks))
    (historyOf_historyOf symbol ticks).symm
  constructor
  · rintro hwindowed rfl
    have hrecent := hwindowed.recent
    rw [Nat.zero_min, List.rtake_zero] at hrecent
    have hzero := recentTicks_zero (fresh.recordMany ticks) symbol
    rw [hholds.recentTicks_none] at hzero
    have hlength := congrArg List.length (hzero.symm.trans hrecent)
    rw [length_rtake, List.length_nil] at hlength
    exact List.eq_nil_of_length_eq_zero (by omega)
  · intro hn
    refine ⟨?_, ?_, ⟨hholds.latest symbol hpos, rfl⟩, ?_⟩
    · cases n with
      | zero =>
          rw [Nat.zero_min, List.rtake_zero]
          have hzero := recentTicks_zero (fresh.recordMany ticks) symbol
          rwa [hholds.recentTicks_none, hn rfl, List.rtake_nil] at hzero
      | succ n =>
          rw [hholds.recentTicks_pos symbol (Nat.succ_pos n), ← Nat.min_assoc, rtake_min_length]
    · rw [hholds.recentTicks_none, rtake_min_length]
    · refine ⟨?_, hsame.symm, congrArg List.getLast? hsame.symm⟩
      simp only [recentTicks]
      rw [← bucket, ← bucket, hsame]

/-! ### Zero ticks -/

def openingTick : Tick where
  symbol := text "005930"
  ts := ⟨sampleDate, Time.midnight, some .utc⟩
  price := .finite false 79000 0
  volume := 10
  side := .buy
  price_finite := rfl

def tenTicks : TickContext := ⟨10, ∅, Nat.le_add_left 2 8⟩

theorem make_ten : make 10 = .ok tenTicks := rfl

theorem windowed_opening :
    tenTicks.Windowed [openingTick, openingTick] (text "005930") 1 :=
  (windowed_iff make_ten _ _ _).mpr (by decide)

/-- Asked for no tick, the context returns the one it has. -/
theorem recentTicks_zero_opening :
    (tenTicks.recordMany [openingTick]).recentTicks (text "005930") (some 0) = [openingTick] ∧
      ¬ tenTicks.Windowed [openingTick] (text "005930") 0 := by
  have hholds := recordMany_holds (c := tenTicks) rfl [openingTick]
  have hzero : (tenTicks.recordMany [openingTick]).recentTicks (text "005930") (some 0) =
      [openingTick] := by
    rw [recentTicks_zero, hholds.recentTicks_none]
    rfl
  refine ⟨hzero, ?_⟩
  intro hwindowed
  have hrecent := hwindowed.recent
  rw [Nat.zero_min, List.rtake_zero] at hrecent
  cases hzero.symm.trans hrecent

end TickContext
end NexusBackend
