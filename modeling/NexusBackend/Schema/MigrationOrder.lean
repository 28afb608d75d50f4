import NexusBackend.Schema.Migrate
import Mathlib.Data.List.TakeWhile

/-!
The order in which migrations are applied.

`discover` sorts by file name, as text. Every run applies what is pending in the order of the
versions exactly where that is the order of the names; then the versions in the database are at
all times a lower part of the versions of the files, which is what the readiness check relies on.
-/
namespace NexusBackend

open Python

/-! ### What is discovered -/

/-- The version of a migration file. -/
def fileVersion? (name : Text) : Option Nat :=
  (versionDigits? name).map fun digits => ofDigits (digits.filterMap decimalDigit?)

namespace MigrationsDir

variable (dir : MigrationsDir)

/-- The migration files with their versions. -/
def migrations : List (Nat × Text) :=
  dir.names.filterMap fun name => (fileVersion? name).map fun version => (version, name)

/-- The migration files in the order they are discovered. -/
def discovered : List (Nat × Text) :=
  dir.sqlFiles.filterMap fun name => (fileVersion? name).map fun version => (version, name)

def Distinct : Prop := (dir.migrations.map Prod.fst).Nodup

/-- The smaller name has the smaller version. -/
def NamesFollowVersions : Prop :=
  ∀ p ∈ dir.migrations, ∀ q ∈ dir.migrations, p.2 < q.2 → p.1 < q.1

instance : Decidable dir.Distinct := inferInstanceAs (Decidable (List.Nodup _))

instance : Decidable dir.NamesFollowVersions :=
  inferInstanceAs (Decidable (∀ p ∈ dir.migrations, ∀ q ∈ dir.migrations, p.2 < q.2 → p.1 < q.1))

end MigrationsDir

theorem versionDigits_length {name digits : Text} (h : versionDigits? name = some digits) :
    digits.length ≤ name.length := by
  simp only [versionDigits?] at h
  split at h
  · cases h
    exact (List.takeWhile_sublist _).length_le
  · cases h

theorem versionDigits_suffix {name digits : Text} (h : versionDigits? name = some digits) :
    (text ".sql").isSuffixOf name = true := by
  simp only [versionDigits?] at h
  split at h
  · rename_i hmatch
    obtain ⟨-, -, hsuffix, -⟩ := hmatch
    rw [List.isSuffixOf_iff_suffix] at hsuffix ⊢
    exact hsuffix.trans ((List.drop_suffix _ _).trans (List.drop_suffix _ _))
  · cases h

theorem mapM_eq_map {α β : Type} {f : α → Except Exn β} {g : α → β} {xs : List α}
    (h : ∀ x ∈ xs, f x = .ok (g x)) : xs.mapM f = .ok (xs.map g) := by
  induction xs with
  | nil => rfl
  | cons x xs ih =>
      rw [List.mapM_cons, h x List.mem_cons_self,
        ih fun y hy => h y (List.mem_cons_of_mem x hy)]
      rfl

/-- No name is long enough for `int` to refuse its digits. -/
theorem discover_eq (dir : MigrationsDir) : discover dir = .ok dir.discovered := by
  have hfile (name : Text) (hname : name ∈ dir.sqlFiles) :
      discoverFile name = .ok ((fileVersion? name).map fun version => (version, name)) := by
    have hshort : name.length ≤ 255 := by
      have hmem := (Ranking.ascending_perm id _).mem_iff.mp hname
      exact dir.short name (List.mem_of_mem_filter hmem)
    rw [discoverFile, fileVersion?]
    cases hdigits : versionDigits? name with
    | none => rfl
    | some digits =>
        have hlength : digits.length ≤ maxIntDigits := by
          have hle := versionDigits_length hdigits
          rw [maxIntDigits]
          omega
        dsimp only
        rw [intOfDigits, if_pos hlength]
        rfl
  rw [discover, mapM_eq_map hfile]
  change Except.ok (List.reduceOption _) = _
  rw [List.reduceOption, List.filterMap_map]
  rfl

namespace MigrationsDir

variable (dir : MigrationsDir)

theorem discovered_perm : dir.discovered.Perm dir.migrations := by
  have hperm : dir.discovered.Perm
      ((dir.names.filter fun name => (text ".sql").isSuffixOf name).filterMap fun name =>
        (fileVersion? name).map fun version => (version, name)) :=
    (Ranking.ascending_perm id _).filterMap _
  have hall : (dir.names.filter fun name => (text ".sql").isSuffixOf name).filterMap (fun name =>
      (fileVersion? name).map fun version => (version, name)) = dir.migrations := by
    rw [List.filterMap_filter]
    apply List.filterMap_congr
    intro name _
    split
    · rfl
    · rename_i hsuffix
      cases hdigits : versionDigits? name with
      | none => rw [fileVersion?, hdigits]; rfl
      | some digits => exact absurd (versionDigits_suffix hdigits) hsuffix
  rwa [hall] at hperm

theorem discovered_sorted : dir.discovered.Pairwise fun p q => p.2 < q.2 := by
  have hnodup : dir.sqlFiles.Nodup :=
    (Ranking.ascending_perm id _).nodup_iff.mpr (dir.nodup.filter _)
  have hlt : dir.sqlFiles.Pairwise (· < ·) := by
    have hle := (Ranking.ascending_sorted id _).and hnodup
    exact hle.imp fun h => lt_of_le_of_ne h.1 h.2
  rw [discovered, List.pairwise_filterMap]
  apply hlt.imp
  intro a b hab p hp q hq
  obtain ⟨-, -, rfl⟩ := Option.map_eq_some_iff.mp hp
  obtain ⟨-, -, rfl⟩ := Option.map_eq_some_iff.mp hq
  exact hab

/-- The order of the names is that of the versions. -/
theorem discovered_ascending (h : dir.NamesFollowVersions) :
    dir.discovered.Pairwise fun p q => p.1 < q.1 := by
  apply dir.discovered_sorted.imp_of_mem
  intro p q hp hq hpq
  exact h p (dir.discovered_perm.mem_iff.mp hp) q (dir.discovered_perm.mem_iff.mp hq) hpq

theorem namesFollowVersions_of_ascending
    (h : dir.discovered.Pairwise fun p q => p.1 < q.1) : dir.NamesFollowVersions := by
  intro p hp q hq hpq
  have hforward : dir.discovered.Pairwise fun p q => p.2 < q.2 → p.1 < q.1 := by
    refine h.imp ?_
    intro p q hlt _
    exact hlt
  have hbackward : dir.discovered.Pairwise (flip fun p q => p.2 < q.2 → p.1 < q.1) := by
    refine dir.discovered_sorted.imp ?_
    intro p q hlt hgt
    exact absurd hgt (lt_asymm hlt)
  have hself (p : Nat × Text) (_ : p ∈ dir.discovered) (hp : p.2 < p.2) : p.1 < p.1 :=
    absurd hp (lt_irrefl _)
  exact hforward.forall_of_forall_of_flip hself hbackward (dir.discovered_perm.mem_iff.mpr hp)
    (dir.discovered_perm.mem_iff.mpr hq) hpq

end MigrationsDir

/-! ### One run -/

namespace RunWorld

/-- The run gets to its plan, and is to apply it. -/
def Applies (world : RunWorld) : Prop :=
  world.connect.isOk = true ∧ world.readApplied.isOk = true ∧ world.dryRun = false

instance (world : RunWorld) : Decidable world.Applies := inferInstanceAs (Decidable (_ ∧ _ ∧ _))

/-- The file can be applied in this run. -/
def succeeds (world : RunWorld) (p : Nat × Text) : Bool := (world.apply p.2).isOk

end RunWorld

namespace Database

variable (db : Database)

/-- The migrations whose versions are not in the database. -/
def due (files : List (Nat × Text)) : List (Nat × Text) := files.filter fun p => p.1 ∉ db.applied

@[simp] theorem applied_record (version : Nat) :
    (db.record version).applied = insert version db.applied := rfl

theorem mem_recordAll {versions : List Nat} {v : Nat} :
    v ∈ (db.recordAll versions).applied ↔ v ∈ db.applied ∨ v ∈ versions := by
  induction versions generalizing db with
  | nil => exact (or_iff_left List.not_mem_nil).symm
  | cons version versions ih =>
      rw [recordAll, List.foldl_cons]
      change v ∈ ((db.record version).recordAll versions).applied ↔ _
      rw [ih, applied_record, Finset.mem_insert, List.mem_cons]
      tauto

end Database

/-- The run applies these versions in this order and changes nothing else. -/
def MigrateRun.Commits (r : MigrateRun) (versions : List Nat) (db : Database) : Prop :=
  r.applied = versions ∧ r.db = db.recordAll versions

theorem MigrateRun.commits_nil (db : Database) (result : Except Exn Nat) :
    MigrateRun.Commits ⟨[], db, result⟩ [] db := ⟨rfl, rfl⟩

namespace Migrate

theorem applyPlan_commits (world : RunWorld) (plan : List (Nat × Text)) (db : Database) :
    (applyPlan world plan db).Commits ((plan.takeWhile world.succeeds).map Prod.fst) db := by
  induction plan generalizing db with
  | nil => exact MigrateRun.commits_nil db _
  | cons p plan ih =>
      obtain ⟨version, path⟩ := p
      rw [applyPlan, List.takeWhile_cons, RunWorld.succeeds]
      cases world.apply path with
      | error e => exact MigrateRun.commits_nil db _
      | ok _ =>
          obtain ⟨happlied, hdb⟩ := ih (db.record version)
          exact ⟨congrArg (version :: ·) happlied, hdb⟩

/-- What a run that is connected is to apply. -/
theorem connected_commits (world : RunWorld) (pending : List (Nat × Text)) (db : Database) :
    (connected world pending db).Commits
      (if world.readApplied.isOk = true ∧ world.dryRun = false then
        ((db.due pending).takeWhile world.succeeds).map Prod.fst else []) db := by
  rw [connected]
  cases world.readApplied with
  | error e =>
      dsimp only
      rw [if_neg fun h => nomatch h.1]
      exact MigrateRun.commits_nil db _
  | ok _ =>
      change MigrateRun.Commits (if db.due pending = [] then _ else _) _ db
      by_cases hnone : db.due pending = []
      · rw [if_pos hnone, hnone, List.takeWhile_nil, List.map_nil, ite_self]
        exact MigrateRun.commits_nil db _
      · rw [if_neg hnone]
        cases world.dryRun with
        | true =>
            rw [if_pos rfl, if_neg fun h => nomatch h.2]
            exact MigrateRun.commits_nil db _
        | false =>
            rw [if_neg Bool.false_ne_true, if_pos ⟨rfl, rfl⟩]
            exact applyPlan_commits world (db.due pending) db

/-- A run applies what is due in the order it is discovered, up to the first failure. -/
theorem run_commits (dir : MigrationsDir) (world : RunWorld) (db : Database) :
    (run dir world db).Commits (if world.Applies then
      ((db.due dir.discovered).takeWhile world.succeeds).map Prod.fst else []) db := by
  rw [run, discover_eq]
  dsimp only
  by_cases hnone : dir.discovered = []
  · rw [if_pos hnone, hnone]
    change MigrateRun.Commits _ (if _ then [] else []) db
    rw [ite_self]
    exact MigrateRun.commits_nil db _
  · rw [if_neg hnone]
    cases hconnect : world.connect with
    | error e =>
        have hnot : ¬ world.Applies := by
          rw [RunWorld.Applies, hconnect]
          exact fun h => nomatch h.1
        rw [if_neg hnot]
        exact MigrateRun.commits_nil db _
    | ok _ =>
        have happlies : world.Applies ↔ world.readApplied.isOk = true ∧ world.dryRun = false := by
          rw [RunWorld.Applies, hconnect]
          exact and_iff_right rfl
        have hcommits := connected_commits world dir.discovered db
        rwa [if_congr happlies.symm rfl rfl] at hcommits

end Migrate

/-! ### Every run -/

namespace MigrationsDir

variable (dir : MigrationsDir)

/-- With each version in the database, so is every file of a smaller one. -/
def LowerPart (db : Database) : Prop :=
  ∀ w ∈ db.applied, ∀ p ∈ dir.migrations, p.1 ≤ w → p.1 ∈ db.applied

/-- What is due in the order of the versions. -/
def dueInOrder (db : Database) : List (Nat × Text) :=
  Ranking.ascending Prod.fst (db.due dir.migrations)

/-- What a run is for: `r` is such a run from `db`. -/
structure RunsWell (world : RunWorld) (db : Database) (r : MigrateRun) : Prop where
  commits : r.Commits (if world.Applies then
    ((dir.dueInOrder db).takeWhile world.succeeds).map Prod.fst else []) db
  increasing : r.applied.Pairwise (· < ·)
  lower : ∀ k, dir.LowerPart (db.recordAll (r.applied.take k))
  ready : ∀ k fault expected check,
    verifySchema fault (db.recordAll (r.applied.take k)) expected = .ok check →
    check.ok = true → ∀ p ∈ dir.migrations, (p.1 : Int) ≤ expected →
    p.1 ∈ (db.recordAll (r.applied.take k)).applied

variable {dir}

theorem dueInOrder_ascending (h : dir.Distinct) (db : Database) :
    ((dir.dueInOrder db).map Prod.fst).Pairwise (· < ·) := by
  have hnodup : ((dir.dueInOrder db).map Prod.fst).Nodup := by
    have hperm := (Ranking.ascending_perm Prod.fst (db.due dir.migrations)).map Prod.fst
    rw [dueInOrder, hperm.nodup_iff]
    exact List.Nodup.sublist (List.filter_sublist.map Prod.fst) h
  have hle : ((dir.dueInOrder db).map Prod.fst).Pairwise (· ≤ ·) :=
    List.pairwise_map.mpr (Ranking.ascending_sorted Prod.fst _)
  exact (hle.and hnodup).imp fun hpq => lt_of_le_of_ne hpq.1 hpq.2

theorem mem_dueInOrder {db : Database} {p : Nat × Text} (hp : p ∈ dir.migrations)
    (hnot : p.1 ∉ db.applied) : p.1 ∈ (dir.dueInOrder db).map Prod.fst := by
  refine List.mem_map_of_mem ((Ranking.ascending_perm _ _).mem_iff.mpr ?_)
  exact List.mem_filter.mpr ⟨hp, decide_eq_true hnot⟩

/-- A cut of what is due in order leaves a lower part. -/
theorem LowerPart.recordAll (h : dir.Distinct) {db : Database} (hdb : dir.LowerPart db)
    {versions : List Nat} (hpre : versions <+: (dir.dueInOrder db).map Prod.fst) :
    dir.LowerPart (db.recordAll versions) := by
  intro w hw p hp hle
  rw [Database.mem_recordAll] at hw ⊢
  by_cases hdone : p.1 ∈ db.applied
  · exact .inl hdone
  · rcases hw with hw | hw
    · exact absurd (hdb w hw p hp hle) hdone
    · rw [List.prefix_iff_eq_take.mp hpre] at hw ⊢
      exact .inr (Ranking.mem_take_of_le (dueInOrder_ascending h db) hw
        (mem_dueInOrder hp hdone) hle)

/-- The check passes where a version from the expected one on is there. -/
theorem verifySchema_ok {fault : Option ProbeFault} {db : Database} {expected : Int}
    {check : SchemaCheck} (h : verifySchema fault db expected = .ok check)
    (hok : check.ok = true) : ∃ w ∈ db.applied, expected ≤ (w : Int) := by
  cases fault with
  | some fault =>
      cases fault with
      | undefinedTable =>
          cases h
          cases hok
      | database className =>
          cases h
          cases hok
      | other e => cases h
  | none =>
      cases db with
      | none =>
          cases h
          cases hok
      | some versions =>
          simp only [verifySchema] at h
          split at h
          · rename_i hnonempty
            split at h
            · rename_i hle
              exact ⟨_, versions.max'_mem hnonempty, hle⟩
            · cases h
              cases hok
          · cases h
            cases hok

theorem LowerPart.ready {db : Database} (hdb : dir.LowerPart db) {fault : Option ProbeFault}
    {expected : Int} {check : SchemaCheck} (h : verifySchema fault db expected = .ok check)
    (hok : check.ok = true) {p : Nat × Text} (hp : p ∈ dir.migrations)
    (hle : (p.1 : Int) ≤ expected) : p.1 ∈ db.applied := by
  obtain ⟨w, hw, hexpected⟩ := verifySchema_ok h hok
  exact hdb w hw p hp (by omega)

theorem due_discovered (h : dir.Distinct) (hnames : dir.NamesFollowVersions) (db : Database) :
    db.due dir.discovered = dir.dueInOrder db := by
  apply Ranking.eq_ascending
  · exact dir.discovered_perm.filter _
  · have hsorted := (dir.discovered_ascending hnames).filter fun p => p.1 ∉ db.applied
    exact hsorted.imp fun hlt => hlt.le
  · intro p hp q hq heq
    exact List.inj_on_of_nodup_map h (List.mem_of_mem_filter hp) (List.mem_of_mem_filter hq) heq

theorem run_runsWell (h : dir.Distinct) (hnames : dir.NamesFollowVersions) {db : Database}
    (hdb : dir.LowerPart db) (world : RunWorld) :
    dir.RunsWell world db (Migrate.run dir world db) := by
  have hcommits := Migrate.run_commits dir world db
  rw [due_discovered h hnames] at hcommits
  have hpre : (Migrate.run dir world db).applied <+: (dir.dueInOrder db).map Prod.fst := by
    rw [hcommits.1]
    split
    · exact (List.takeWhile_prefix _).map _
    · exact List.nil_prefix
  have hlower (k : Nat) :
      dir.LowerPart (db.recordAll ((Migrate.run dir world db).applied.take k)) :=
    hdb.recordAll h ((List.take_prefix k _).trans hpre)
  refine ⟨hcommits, (dueInOrder_ascending h db).sublist hpre.sublist, hlower, ?_⟩
  intro k fault expected check hcheck hok p hp hle
  exact (hlower k).ready hcheck hok hp hle

/-- The invariant of run upon run. -/
theorem after_lowerPart (h : dir.Distinct) (hnames : dir.NamesFollowVersions) {db : Database}
    (hdb : dir.LowerPart db) (worlds : List RunWorld) :
    dir.LowerPart (Migrate.after dir worlds db) := by
  induction worlds generalizing db with
  | nil => exact hdb
  | cons world worlds ih =>
      have hwell := run_runsWell h hnames hdb world
      have hlast := hwell.lower (Migrate.run dir world db).applied.length
      rw [List.take_length] at hlast
      have hnext : dir.LowerPart (Migrate.run dir world db).db := by
        rw [(Migrate.run_commits dir world db).2, ← (Migrate.run_commits dir world db).1]
        exact hlast
      exact ih hnext

/-- A run in which nothing fails. -/
def calm : RunWorld := ⟨false, .ok (), .ok (), fun _ => .ok (), .ok ()⟩

/-- A first run in which nothing fails shows the order of the names. -/
theorem namesFollowVersions_of_runsWell
    (h : dir.RunsWell calm none (Migrate.run dir calm none)) : dir.NamesFollowVersions := by
  have hcommits := (Migrate.run_commits dir calm none).1
  have happlies : calm.Applies := ⟨rfl, rfl, rfl⟩
  have hdue : Database.due none dir.discovered = dir.discovered :=
    List.filter_eq_self.mpr fun _ _ => decide_eq_true (Finset.notMem_empty _)
  have hcalm (p : Nat × Text) (_ : p ∈ dir.discovered) : calm.succeeds p = true := rfl
  rw [if_pos happlies, hdue, List.takeWhile_eq_self_iff.mpr hcalm] at hcommits
  have hincreasing := h.increasing
  rw [hcommits, List.pairwise_map] at hincreasing
  exact dir.namesFollowVersions_of_ascending hincreasing

theorem lowerPart_none (dir : MigrationsDir) : dir.LowerPart none := by
  intro w hw
  cases hw

/-- Over files of distinct versions every run of every sequence applies what is due in the order
of the versions, and the check is right, exactly where the names are in that order. -/
theorem runs_in_order_iff (h : dir.Distinct) :
    (∀ db, dir.LowerPart db → ∀ worlds world,
      dir.RunsWell world (Migrate.after dir worlds db)
        (Migrate.run dir world (Migrate.after dir worlds db))) ↔ dir.NamesFollowVersions := by
  constructor
  · intro hall
    exact namesFollowVersions_of_runsWell (hall none (lowerPart_none dir) [] calm)
  · intro hnames db hdb worlds world
    exact run_runsWell h hnames (after_lowerPart h hnames hdb worlds) world

/-- The directory as it is. -/
def shipped : MigrationsDir where
  names := [text "001_init.sql", text "002_execution_audit.sql", text "003_securities.sql"]
  nodup := by decide
  short := by decide

theorem runs_in_order_iff_shipped :
    shipped.NamesFollowVersions ∧ ∀ db, shipped.LowerPart db → ∀ worlds world,
      shipped.RunsWell world (Migrate.after shipped worlds db)
        (Migrate.run shipped world (Migrate.after shipped worlds db)) :=
  ⟨by decide, (runs_in_order_iff (by decide)).mpr (by decide)⟩

/-- Without a leading zero the tenth migration comes before the ninth. -/
def unpadded : MigrationsDir where
  names := [text "9_quotes.sql", text "10_index.sql"]
  nodup := by decide
  short := by decide

theorem runs_out_of_order :
    unpadded.Distinct ∧ ¬ ∀ db, unpadded.LowerPart db → ∀ worlds world,
      unpadded.RunsWell world (Migrate.after unpadded worlds db)
        (Migrate.run unpadded world (Migrate.after unpadded worlds db)) := by
  refine ⟨by decide, fun hall => ?_⟩
  have hnames := namesFollowVersions_of_runsWell (hall none (lowerPart_none unpadded) [] calm)
  exact absurd hnames (by decide)

end MigrationsDir
end NexusBackend
