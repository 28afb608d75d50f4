import NexusBackend.Api.TicksRoutes
import NexusBackend.Persistence.AuditMetrics

/-!
`GET /metrics/decisions` and `/metrics/blocked`: both count the rows of one window of the audit.
-/
namespace NexusBackend

open Python

structure DecisionRate where
  windowMinutes : WindowMinutes
  buckets : List DecisionBucket

structure BlockedReasons where
  windowMinutes : WindowMinutes
  totalBlocked : Nat
  reasons : List BlockedReason

section
variable (db : AuditDatabase) (table : AuditTable) (now : UtcTime) (minutes : WindowMinutes)

/-- `metrics_decisions`. -/
def metricsDecisions : Except Exn DecisionRate := do
  let since ← windowStart now minutes
  let rows ← db.aggregateDecisionsPerMinute table since
  return ⟨minutes, rows⟩

/-- `metrics_blocked`. -/
def metricsBlocked : Except Exn BlockedReasons := do
  let since ← windowStart now minutes
  let rows ← db.aggregateBlockedReasons table since
  return ⟨minutes, (rows.map BlockedReason.nBlocked).sum, rows⟩

/-- At one time the two answers count the same rows, each of them once: by the minute and its mode
on the one side, by the guard on the other. Rows of the pipeline are blocked only where nothing
was done. Without the database both answers are empty. -/
theorem metrics_agree :
    (∃ e, windowStart now minutes = .error e ∧ metricsDecisions db table now minutes = .error e ∧
        metricsBlocked db table now minutes = .error e) ∨
      (db.lost ≠ none ∧ metricsDecisions db table now minutes = .ok ⟨minutes, []⟩ ∧
        metricsBlocked db table now minutes = .ok ⟨minutes, 0, []⟩) ∨
      ∃ since buckets reasons, windowStart now minutes = .ok since ∧
        metricsDecisions db table now minutes = .ok ⟨minutes, buckets⟩ ∧
        metricsBlocked db table now minutes =
          .ok ⟨minutes, (buckets.map DecisionBucket.nBlocked).sum, reasons⟩ ∧
        (buckets.Pairwise fun a b => b.bucket < a.bucket) ∧
        (buckets.map DecisionBucket.nTotal).sum = (table.window since).length ∧
        (∀ b ∈ buckets, 60000000 ∣ b.bucket ∧
          b = decisionBucket (b.bucket, (table.window since).filter (·.minute = b.bucket)) ∧
          b.nTotal = b.nLive + b.nShadow + b.nNoop +
            ((table.window since).filter (·.minute = b.bucket)).countP
              fun row => row.mode = text "live" && !row.executed) ∧
        ((∀ row ∈ table.rows, row.Coherent) → ∀ b ∈ buckets, b.nBlocked ≤ b.nNoop) ∧
        (reasons.Pairwise fun a b => b.nBlocked ≤ a.nBlocked) ∧
        (reasons.map BlockedReason.guardId).Nodup ∧
        ∀ r ∈ reasons, 0 < r.nBlocked ∧
          r.nBlocked = ((table.window since).filter (·.blockedBy = some r.guardId)).length ∧
          IsGreatest {t | ∃ row ∈ table.window since, row.blockedBy = some r.guardId ∧
            row.instant = t} r.lastFiredAt := by
  rw [metricsDecisions, metricsBlocked]
  cases hstart : windowStart now minutes with
  | error e => exact .inl ⟨e, rfl, rfl, rfl⟩
  | ok since =>
      right
      rw [ok_bind, ok_bind, AuditDatabase.aggregateDecisionsPerMinute,
        AuditDatabase.aggregateBlockedReasons, db.guarded_answer, db.guarded_answer]
      by_cases hlost : db.lost = none
      · right
        have hanswers : db.Answers [] := ⟨hlost, fun _ hs => absurd hs List.not_mem_nil⟩
        rw [if_pos hanswers, if_pos hanswers]
        obtain ⟨hnewest, hminutes, htotal, hblocked⟩ := db.buckets_spec (table.window since) rfl
        obtain ⟨hmost, hids, hreasons, hsum⟩ := db.reasons_spec (table.window since) rfl
        refine ⟨since, _, _, rfl, rfl, ?_, hnewest, htotal, ?_, ?_, hmost, hids, hreasons⟩
        · rw [hblocked, ← hsum]
          rfl
        · intro b hb
          obtain ⟨hminute, hcounts⟩ := hminutes b hb
          obtain ⟨row, -, hrow⟩ := List.mem_map.mp hminute
          refine ⟨hrow ▸ minute_dvd row, hcounts, ?_⟩
          have hadmitted : ∀ row ∈ (table.window since).filter (·.minute = b.bucket),
              row.MeetsConstraints :=
            fun row hrow =>
              table.admitted row (List.mem_of_mem_filter (List.mem_of_mem_filter hrow))
          have hmodes := decisionBucket_total hadmitted b.bucket
          rwa [← hcounts] at hmodes
        · intro hcoherent b hb
          have hminute : ∀ row ∈ (table.window since).filter (·.minute = b.bucket), row.Coherent :=
            fun row hrow => hcoherent row (List.mem_of_mem_filter (List.mem_of_mem_filter hrow))
          have hnoop := decisionBucket_blocked hminute b.bucket
          rwa [← (hminutes b hb).2] at hnoop
      · left
        have hanswers : ¬ db.Answers [] := fun h => hlost h.1
        rw [if_neg hanswers, if_neg hanswers]
        exact ⟨hlost, rfl, rfl⟩

end
end NexusBackend
