import NexusBackend.Schema.MigrationOrder
import Mathlib.Order.Interval.Finset.Nat

/-!
`GET /readyz`, over the database that the migration runner leaves.

Whatever runs there were, the shipped migrations are in the database up to one of them, and the
service is ready where that is the last and both pings are answered.
-/
namespace NexusBackend

open Python

/-- What a probe meets. -/
structure ReadyWorld where
  pool : Except Exn Unit
  database : Except Exn Unit
  redis : Except Exn Unit
  schema : Option ProbeFault

/-- `ReadinessDTO`. -/
structure Readiness where
  ok : Bool
  database : Bool
  redis : Bool
  migration : SchemaCheck

def databaseUnreachable : SchemaCheck where
  applied := none
  expected := expectedSchemaVersion
  ok := false
  reason := some (text "database unreachable — schema unknown")

/-- `readyz`; each ping is in a block of its own that lets nothing pass. -/
def readyz (world : ReadyWorld) (db : Database) : Except Exn Readiness := do
  world.pool
  let databaseOk := world.database.isOk
  let redisOk := world.redis.isOk
  let migration ← if databaseOk then verifySchema world.schema db else .ok databaseUnreachable
  return ⟨databaseOk && redisOk && migration.ok, databaseOk, redisOk, migration⟩

namespace MigrationsDir

variable {dir : MigrationsDir}

/-! ### What is applied stays, and is one of the files -/

theorem applied_run (dir : MigrationsDir) (world : RunWorld) (db : Database) :
    db.applied ⊆ (Migrate.run dir world db).db.applied := by
  intro v hv
  rw [(Migrate.run_commits dir world db).2, Database.mem_recordAll]
  exact .inl hv

theorem applied_after (dir : MigrationsDir) (worlds : List RunWorld) (db : Database) :
    db.applied ⊆ (Migrate.after dir worlds db).applied := by
  induction worlds generalizing db with
  | nil => exact Finset.Subset.refl _
  | cons world worlds ih => exact (applied_run dir world db).trans (ih _)

/-- The database has no version but those of the files. -/
def Known (dir : MigrationsDir) (db : Database) : Prop :=
  ∀ v ∈ db.applied, v ∈ dir.migrations.map Prod.fst

theorem known_run {db : Database} (h : dir.Known db) (world : RunWorld) :
    dir.Known (Migrate.run dir world db).db := by
  intro v hv
  rw [(Migrate.run_commits dir world db).2, Database.mem_recordAll] at hv
  rcases hv with hv | hv
  · exact h v hv
  · split at hv
    · have hdue := ((List.takeWhile_sublist _).map Prod.fst).subset hv
      have hsub := (List.filter_sublist.map Prod.fst).subset hdue
      exact (dir.discovered_perm.map Prod.fst).subset hsub
    · cases hv

theorem known_after {db : Database} (h : dir.Known db) (worlds : List RunWorld) :
    dir.Known (Migrate.after dir worlds db) := by
  induction worlds generalizing db with
  | nil => exact h
  | cons world worlds ih => exact ih (known_run h world)

/-- The run applies all that is due. -/
def Completes (dir : MigrationsDir) (world : RunWorld) : Prop :=
  world.Applies ∧ ∀ p ∈ dir.migrations, world.succeeds p = true

theorem completes_run {world : RunWorld} (h : dir.Completes world) (db : Database)
    {p : Nat × Text} (hp : p ∈ dir.migrations) :
    p.1 ∈ (Migrate.run dir world db).db.applied := by
  rw [(Migrate.run_commits dir world db).2, Database.mem_recordAll, if_pos h.1]
  by_cases hdone : p.1 ∈ db.applied
  · exact .inl hdone
  · right
    have hall : (db.due dir.discovered).takeWhile world.succeeds = db.due dir.discovered := by
      rw [List.takeWhile_eq_self_iff]
      intro q hq
      exact h.2 q (dir.discovered_perm.mem_iff.mp (List.mem_of_mem_filter hq))
    rw [hall]
    refine List.mem_map_of_mem (List.mem_filter.mpr ⟨?_, decide_eq_true hdone⟩)
    exact dir.discovered_perm.mem_iff.mpr hp

theorem completes_after {worlds : List RunWorld} (h : ∃ world ∈ worlds, dir.Completes world)
    (db : Database) {p : Nat × Text} (hp : p ∈ dir.migrations) :
    p.1 ∈ (Migrate.after dir worlds db).applied := by
  obtain ⟨world, hworld, hcompletes⟩ := h
  obtain ⟨before, behind, rfl⟩ := List.append_of_mem hworld
  rw [Migrate.after, List.foldl_append]
  exact applied_after dir behind _ (completes_run hcompletes _ hp)

/-! ### The shipped migrations -/

theorem shipped_versions : shipped.migrations.map Prod.fst = [1, 2, 3] := by decide

/-- Up to one of them, all are there and no others. -/
theorem shipped_applied {db : Database} (hlower : shipped.LowerPart db)
    (hknown : shipped.Known db) : ∃ k ≤ 3, db.applied = Finset.Icc 1 k := by
  have hrange : ∀ v ∈ db.applied, 1 ≤ v ∧ v ≤ 3 := by
    intro v hv
    have hmem := hknown v hv
    rw [shipped_versions] at hmem
    simp only [List.mem_cons, List.not_mem_nil, or_false] at hmem
    omega
  by_cases hnonempty : db.applied.Nonempty
  · refine ⟨db.applied.max' hnonempty, (hrange _ (db.applied.max'_mem hnonempty)).2, ?_⟩
    ext v
    rw [Finset.mem_Icc]
    constructor
    · intro hv
      exact ⟨(hrange v hv).1, db.applied.le_max' v hv⟩
    · intro hv
      have hlast := hrange _ (db.applied.max'_mem hnonempty)
      have hmem : v ∈ shipped.migrations.map Prod.fst := by
        rw [shipped_versions]
        simp only [List.mem_cons, List.not_mem_nil, or_false]
        omega
      obtain ⟨p, hp, rfl⟩ := List.mem_map.mp hmem
      exact hlower _ (db.applied.max'_mem hnonempty) p hp hv.2
  · exact ⟨0, Nat.zero_le 3, Finset.not_nonempty_iff_eq_empty.mp hnonempty⟩

end MigrationsDir

/-- What the check says of a database with the versions up to `k`. -/
theorem verifySchema_upTo {db : Database} {k : Nat} (h : db.applied = Finset.Icc 1 k)
    (expected : Int) (hexpected : 0 < expected) :
    ∃ check, verifySchema none db expected = .ok check ∧ (check.ok = true ↔ expected ≤ k) ∧
      (0 < k → check.applied = some (k : Int)) := by
  cases db with
  | none =>
      have hzero : k = 0 := by
        by_contra hk
        have hmem : k ∈ Finset.Icc 1 k := Finset.mem_Icc.mpr ⟨Nat.pos_of_ne_zero hk, le_rfl⟩
        rw [← h] at hmem
        cases hmem
      refine ⟨_, rfl, ?_, fun hk => absurd hk (by omega)⟩
      exact iff_of_false Bool.false_ne_true (by omega)
  | some versions =>
      obtain rfl : versions = Finset.Icc 1 k := h
      simp only [verifySchema]
      by_cases hk : 0 < k
      · have hnonempty : (Finset.Icc 1 k).Nonempty := ⟨k, Finset.mem_Icc.mpr ⟨hk, le_rfl⟩⟩
        have hmax : (Finset.Icc 1 k).max' hnonempty = k := by
          refine le_antisymm (Finset.max'_le _ _ _ fun v hv => (Finset.mem_Icc.mp hv).2) ?_
          exact Finset.le_max' _ k (Finset.mem_Icc.mpr ⟨hk, le_rfl⟩)
        rw [dif_pos hnonempty, hmax]
        split
        · rename_i hle
          exact ⟨_, rfl, iff_of_true rfl hle, fun _ => rfl⟩
        · rename_i hle
          exact ⟨_, rfl, iff_of_false Bool.false_ne_true hle, fun _ => rfl⟩
      · have hempty : ¬ (Finset.Icc 1 k).Nonempty := by
          rw [Finset.nonempty_Icc]
          omega
        rw [dif_neg hempty]
        exact ⟨_, rfl, iff_of_false Bool.false_ne_true (by omega), fun h => absurd h hk⟩

/-- Whatever runs of the migration runner there were, the shipped migrations are in the database
up to one of them, up to the last after a run in which nothing fails. Then the service is ready
exactly where both pings are answered, nothing is wrong with the probe and all of them are there;
it raises only where there is no pool or the probe meets what it does not name. -/
theorem readyz_after_runs (worlds : List RunWorld) (world : ReadyWorld) :
    ∃ k ≤ 3, (Migrate.after .shipped worlds none).applied = Finset.Icc 1 k ∧
      ((∃ w ∈ worlds, MigrationsDir.shipped.Completes w) → k = 3) ∧
      ((∃ e, readyz world (Migrate.after .shipped worlds none) = .error e ∧
          (world.pool = .error e ∨
            world.pool = .ok () ∧ world.database.isOk = true ∧ world.schema = some (.other e))) ∨
        ∃ r, readyz world (Migrate.after .shipped worlds none) = .ok r ∧
          (r.ok = true ↔ world.database.isOk = true ∧ world.redis.isOk = true ∧
            world.schema = none ∧ k = 3) ∧
          (world.database.isOk = true → world.schema = none → 0 < k →
            r.migration.applied = some (k : Int))) := by
  have hlower := MigrationsDir.after_lowerPart (by decide) (by decide)
    (MigrationsDir.lowerPart_none .shipped) worlds
  have hfresh : MigrationsDir.shipped.Known none := fun v hv => absurd hv (Finset.notMem_empty v)
  obtain ⟨k, hle, hk⟩ := MigrationsDir.shipped_applied hlower
    (MigrationsDir.known_after hfresh worlds)
  refine ⟨k, hle, hk, ?_, ?_⟩
  · intro hcomplete
    have hlast := MigrationsDir.completes_after hcomplete none
      (p := (3, text "003_securities.sql")) (by decide)
    rw [hk, Finset.mem_Icc] at hlast
    omega
  rw [readyz]
  cases world.pool with
  | error e => exact .inl ⟨e, rfl, .inl rfl⟩
  | ok _ =>
      cases hdatabase : world.database.isOk with
      | false =>
          refine .inr ⟨_, rfl, ?_, fun h => absurd h Bool.false_ne_true⟩
          exact iff_of_false Bool.false_ne_true fun h => Bool.false_ne_true h.1
      | true =>
          cases hschema : world.schema with
          | none =>
              obtain ⟨check, hcheck, hok, happlied⟩ := verifySchema_upTo hk expectedSchemaVersion
                (by decide)
              refine .inr ⟨⟨true && world.redis.isOk && check.ok, true, world.redis.isOk, check⟩,
                ?_, ?_, fun _ _ => happlied⟩
              · rw [ok_bind]
                dsimp only
                rw [if_pos rfl, hcheck]
                rfl
              · rw [Bool.true_and, Bool.and_eq_true, hok, expectedSchemaVersion]
                have hthree : (3 : Int) ≤ k ↔ k = 3 := by omega
                rw [hthree]
                exact ⟨fun h => ⟨rfl, h.1, rfl, h.2⟩, fun h => ⟨h.2.1, h.2.2.2⟩⟩
          | some fault =>
              have hred (b : Bool) : ¬ (true && b && false) = true := by
                rw [Bool.and_false]
                exact Bool.false_ne_true
              have hnone (P Q R : Prop) : ¬ (P ∧ Q ∧ some fault = none ∧ R) :=
                fun h => nomatch h.2.2.1
              cases fault with
              | other e => exact .inl ⟨e, rfl, .inr ⟨rfl, rfl, rfl⟩⟩
              | undefinedTable =>
                  exact .inr ⟨_, rfl, iff_of_false (hred _) (hnone _ _ _), fun _ h => nomatch h⟩
              | database className =>
                  exact .inr ⟨_, rfl, iff_of_false (hred _) (hnone _ _ _), fun _ h => nomatch h⟩

end NexusBackend
