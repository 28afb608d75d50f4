import NexusBackend.Library.Grouping
import NexusBackend.Library.OrderBy
import NexusBackend.Persistence.Connection
import NexusBackend.Persistence.MarketTick

/-!
The aggregates over `execution_audit` in `ExecutionRepository`: the decisions of each minute, and
the blocks of each guard. The database truncates times as UTC.
-/
namespace NexusBackend

open Python

/-- What was inserted into `execution_audit`. -/
structure AuditTable where
  rows : List AuditRow
  admitted : ∀ row ∈ rows, row.MeetsConstraints

def AuditRow.instant (row : AuditRow) : Int := columnTs row.ts

/-- `date_trunc('minute', ts)`. -/
def AuditRow.minute (row : AuditRow) : Int := row.instant - row.instant % 60000000

/-- The rows of the window. -/
def AuditTable.window (table : AuditTable) (since : Int) : List AuditRow :=
  table.rows.filter fun row => since ≤ row.instant

structure DecisionBucket where
  bucket : Int
  nTotal : Nat
  nLive : Nat
  nShadow : Nat
  nNoop : Nat
  nBlocked : Nat

structure BlockedReason where
  guardId : Text
  nBlocked : Nat
  lastFiredAt : Int

/-- The columns of a minute. -/
def decisionBucket (g : Int × List AuditRow) : DecisionBucket where
  bucket := g.1
  nTotal := g.2.length
  nLive := g.2.countP fun row => row.mode = text "live" && row.executed
  nShadow := g.2.countP fun row => row.mode = text "shadow"
  nNoop := g.2.countP fun row => row.mode = text "noop"
  nBlocked := g.2.countP fun row => row.blockedBy.isSome

/-- `blocked_by` and `ts` of a row that was blocked. -/
def AuditRow.block? (row : AuditRow) : Option (Text × Int) :=
  row.blockedBy.map fun guardId => (guardId, row.instant)

/-- The columns of a guard; a group has a row, so its maximum is there. -/
def blockedReason (g : Text × List (Text × Int)) : BlockedReason where
  guardId := g.1
  nBlocked := g.2.length
  lastFiredAt := (g.2.map Prod.snd).max?.getD 0

/-- `ORDER BY bucket DESC`. -/
def DecisionBucket.newest (b : DecisionBucket) : Intᵒᵈ := OrderDual.toDual b.bucket

/-- `ORDER BY n_blocked DESC`. -/
def BlockedReason.most (r : BlockedReason) : Natᵒᵈ := OrderDual.toDual r.nBlocked

structure AuditDatabase extends Connection where
  byBucket : OrderBy DecisionBucket.newest
  byCount : OrderBy BlockedReason.most

namespace AuditDatabase

variable (db : AuditDatabase) (table : AuditTable)

/-- `aggregate_decisions_per_minute`. -/
def aggregateDecisionsPerMinute (since : Int) : Except Exn (List DecisionBucket) :=
  Connection.guarded (db.answer [] (.ok (db.byBucket.arrange
    ((Grouping.groups AuditRow.minute (table.window since)).map decisionBucket))))

/-- `aggregate_blocked_reasons`. -/
def aggregateBlockedReasons (since : Int) : Except Exn (List BlockedReason) :=
  Connection.guarded (db.answer [] (.ok (db.byCount.arrange
    ((Grouping.groups Prod.fst ((table.window since).filterMap AuditRow.block?)).map
      blockedReason))))

end AuditDatabase

/-! ### Minutes -/

section
variable {rows : List AuditRow}

theorem minute_dvd (row : AuditRow) : 60000000 ∣ row.minute := Int.dvd_self_sub_emod

/-- The modes of the table part the rows, but for the live ones that the broker did not take. -/
theorem decisionBucket_total (h : ∀ row ∈ rows, row.MeetsConstraints) (minute : Int) :
    (decisionBucket (minute, rows)).nTotal = (decisionBucket (minute, rows)).nLive +
      (decisionBucket (minute, rows)).nShadow + (decisionBucket (minute, rows)).nNoop +
      rows.countP fun row => row.mode = text "live" && !row.executed := by
  induction rows with
  | nil => rfl
  | cons row rows ih =>
      rw [List.forall_mem_cons] at h
      have hmode := h.1.mode
      have hrest := ih h.2
      have hlive : text "live" ≠ text "shadow" ∧ text "live" ≠ text "noop" := by decide
      have hshadow : text "shadow" ≠ text "live" ∧ text "shadow" ≠ text "noop" := by decide
      have hnoop : text "noop" ≠ text "live" ∧ text "noop" ≠ text "shadow" := by decide
      simp only [decisionBucket, List.length_cons, List.countP_cons] at hrest ⊢
      rcases List.mem_cons.mp hmode with hmode | hmode
      · cases hexecuted : row.executed with
        | true => simp [hmode, hlive]; omega
        | false => simp [hmode, hlive]; omega
      rcases List.mem_cons.mp hmode with hmode | hmode
      · simp [hmode, hshadow]; omega
      · rw [List.mem_singleton] at hmode
        simp [hmode, hnoop]; omega

/-- Who is blocked does nothing. -/
theorem decisionBucket_blocked (h : ∀ row ∈ rows, row.Coherent) (minute : Int) :
    (decisionBucket (minute, rows)).nBlocked ≤ (decisionBucket (minute, rows)).nNoop := by
  refine List.countP_mono_left ?_
  intro row hrow hblocked
  have hsome : row.blockedBy ≠ none := by
    intro hnone
    rw [hnone] at hblocked
    cases hblocked
  exact decide_eq_true ((h row hrow).blocked hsome).1

end

/-! ### Guards -/

section
variable (rows : List AuditRow)

theorem filter_blocks (guardId : Text) :
    (rows.filterMap AuditRow.block?).filter (fun p => p.1 = guardId) =
      (rows.filter fun row => row.blockedBy = some guardId).map
        fun row => (guardId, row.instant) := by
  induction rows with
  | nil => rfl
  | cons row rows ih =>
      rw [List.filterMap_cons, AuditRow.block?, List.filter_cons]
      cases hblocked : row.blockedBy with
      | none => simpa using ih
      | some g =>
          by_cases hg : g = guardId
          · simp [hg, ih]
          · simp [hg, ih]

theorem length_blocks :
    (rows.filterMap AuditRow.block?).length = rows.countP fun row => row.blockedBy.isSome := by
  induction rows with
  | nil => rfl
  | cons row rows ih =>
      rw [List.filterMap_cons, AuditRow.block?, List.countP_cons, ← ih]
      cases row.blockedBy <;> rfl

variable {rows}

/-- The last time of a guard that blocked. -/
theorem blockedReason_last {guardId : Text}
    (h : (rows.filter fun row => row.blockedBy = some guardId) ≠ []) :
    IsGreatest {t | ∃ row ∈ rows, row.blockedBy = some guardId ∧ row.instant = t}
      (blockedReason (guardId,
        (rows.filterMap AuditRow.block?).filter fun p => p.1 = guardId)).lastFiredAt := by
  rw [filter_blocks]
  have htimes : ((rows.filter fun row => row.blockedBy = some guardId).map
      fun row => (guardId, row.instant)).map Prod.snd =
        (rows.filter fun row => row.blockedBy = some guardId).map AuditRow.instant := by
    rw [List.map_map]
    rfl
  rw [blockedReason, htimes]
  cases hmax : ((rows.filter fun row =>
      row.blockedBy = some guardId).map AuditRow.instant).max? with
  | none => exact absurd (List.map_eq_nil_iff.mp (List.max?_eq_none_iff.mp hmax)) h
  | some t =>
      obtain ⟨hmem, hle⟩ := List.max?_eq_some_iff.mp hmax
      constructor
      · obtain ⟨row, hrow, hinstant⟩ := List.mem_map.mp hmem
        obtain ⟨hrow, hblocked⟩ := List.mem_filter.mp hrow
        exact ⟨row, hrow, of_decide_eq_true hblocked, hinstant⟩
      · rintro _ ⟨row, hrow, hblocked, rfl⟩
        exact hle _ (List.mem_map_of_mem (List.mem_filter.mpr ⟨hrow, decide_eq_true hblocked⟩))

end

namespace AuditDatabase

variable (db : AuditDatabase) (table : AuditTable) (since : Int)

/-- The guards of a window: each that blocked once, the most frequent first. -/
theorem reasons_spec (rows : List AuditRow) {reasons : List BlockedReason}
    (h : reasons = db.byCount.arrange ((Grouping.groups Prod.fst
      (rows.filterMap AuditRow.block?)).map blockedReason)) :
    (reasons.Pairwise fun a b => b.nBlocked ≤ a.nBlocked) ∧
      (reasons.map BlockedReason.guardId).Nodup ∧
      (∀ r ∈ reasons, 0 < r.nBlocked ∧
        r.nBlocked = (rows.filter fun row => row.blockedBy = some r.guardId).length ∧
        IsGreatest {t | ∃ row ∈ rows, row.blockedBy = some r.guardId ∧ row.instant = t}
          r.lastFiredAt) ∧
      (reasons.map BlockedReason.nBlocked).sum = rows.countP fun row => row.blockedBy.isSome := by
  have hperm := db.byCount.perm ((Grouping.groups Prod.fst
    (rows.filterMap AuditRow.block?)).map blockedReason)
  rw [← h] at hperm
  refine ⟨?_, ?_, ?_, ?_⟩
  · rw [h]
    exact db.byCount.sorted _
  · rw [(hperm.map _).nodup_iff, List.map_map]
    exact Grouping.keys_groups_nodup _
  · intro r hr
    obtain ⟨g, hg, rfl⟩ := List.mem_map.mp (hperm.mem_iff.mp hr)
    have hne := Grouping.group_ne_nil hg
    obtain ⟨guardId, pairs⟩ := g
    have hpairs : pairs = Grouping.group Prod.fst guardId (rows.filterMap AuditRow.block?) :=
      (Grouping.mem_groups.mp hg).2
    subst hpairs
    have hlength : (Grouping.group Prod.fst guardId (rows.filterMap AuditRow.block?)).length =
        (rows.filter fun row => row.blockedBy = some guardId).length := by
      rw [Grouping.group, filter_blocks, List.length_map]
    have hpos := List.length_pos_iff.mpr hne
    refine ⟨hpos, hlength, blockedReason_last ?_⟩
    rw [hlength] at hpos
    exact List.length_pos_iff.mp hpos
  · rw [(hperm.map _).sum_eq, List.map_map, ← length_blocks]
    exact Grouping.length_groups _

/-- The minutes of a window: each that occurs once, the newest first. -/
theorem buckets_spec (rows : List AuditRow) {buckets : List DecisionBucket}
    (h : buckets = db.byBucket.arrange ((Grouping.groups AuditRow.minute rows).map
      decisionBucket)) :
    (buckets.Pairwise fun a b => b.bucket < a.bucket) ∧
      (∀ b ∈ buckets, b.bucket ∈ rows.map AuditRow.minute ∧
        b = decisionBucket (b.bucket, rows.filter fun row => row.minute = b.bucket)) ∧
      (buckets.map DecisionBucket.nTotal).sum = rows.length ∧
      (buckets.map DecisionBucket.nBlocked).sum = rows.countP fun row => row.blockedBy.isSome := by
  have hperm := db.byBucket.perm ((Grouping.groups AuditRow.minute rows).map decisionBucket)
  rw [← h] at hperm
  have hkeys : (buckets.map DecisionBucket.bucket).Nodup := by
    rw [(hperm.map _).nodup_iff, List.map_map]
    exact Grouping.keys_groups_nodup rows
  refine ⟨?_, ?_, ?_, ?_⟩
  · have hsorted := db.byBucket.sorted ((Grouping.groups AuditRow.minute rows).map decisionBucket)
    rw [← h] at hsorted
    refine (hsorted.and (List.pairwise_map.mp hkeys)).imp ?_
    intro a b hab
    exact lt_of_le_of_ne hab.1 (Ne.symm hab.2)
  · intro b hb
    obtain ⟨g, hg, rfl⟩ := List.mem_map.mp (hperm.mem_iff.mp hb)
    obtain ⟨hminute, hrows⟩ := Grouping.mem_groups.mp hg
    refine ⟨hminute, ?_⟩
    change decisionBucket (g.1, g.2) = _
    rw [hrows]
    rfl
  · rw [(hperm.map _).sum_eq, List.map_map]
    exact Grouping.length_groups rows
  · rw [(hperm.map _).sum_eq, List.map_map]
    exact Grouping.countP_groups _ rows

end AuditDatabase
end NexusBackend
