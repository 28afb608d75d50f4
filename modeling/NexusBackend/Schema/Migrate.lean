import NexusBackend.Library.Ranking
import NexusBackend.Library.Text
import Mathlib.Data.Finset.Max
import Mathlib.Data.List.Lex
import Mathlib.Data.List.ReduceOption

/-!
The migration runner and the check of the schema version.

Of the database only the rows of `schema_version` are read. A file that is applied adds its own
row in the transaction that applies it; what else is in it, and whether it can be applied, is
given for each run.
-/
namespace NexusBackend

open Python

/-! ### Files -/

/-- The names in `MIGRATIONS_DIR`. No file system takes a name of more than 255 characters. -/
structure MigrationsDir where
  names : List Text
  nodup : names.Nodup
  short : ∀ name ∈ names, name.length ≤ 255

/-- `int` of decimal digits. -/
def intOfDigits (digits : Text) : Except Exn Nat :=
  if digits.length ≤ maxIntDigits then .ok (ofDigits (digits.filterMap decimalDigit?))
  else raise .valueError

/-- `VERSION_PATTERN.match(name)`, for a name that ends in `.sql`: the first group. -/
def versionDigits? (name : Text) : Option Text :=
  let digits := name.takeWhile fun c => (decimalDigit? c).isSome
  let rest := name.drop digits.length
  let body := rest.drop 1
  let middle := body.take (body.length - 4)
  if digits ≠ [] ∧ rest.head? = some 95 ∧ (text ".sql").isSuffixOf body ∧ middle ≠ [] ∧
      10 ∉ middle then some digits
  else none

/-- `sorted(MIGRATIONS_DIR.glob("*.sql"))`: paths of one directory compare by their names. -/
def MigrationsDir.sqlFiles (dir : MigrationsDir) : List Text :=
  Ranking.ascending id (dir.names.filter fun name => (text ".sql").isSuffixOf name)

/-- One turn of the loop: nothing for a file that is skipped. -/
def discoverFile (name : Text) : Except Exn (Option (Nat × Text)) :=
  match versionDigits? name with
  | none => return none
  | some digits => do return some (← intOfDigits digits, name)

/-- `discover`. -/
def discover (dir : MigrationsDir) : Except Exn (List (Nat × Text)) :=
  List.reduceOption <$> dir.sqlFiles.mapM discoverFile

/-! ### The database -/

/-- The versions in `schema_version`; none where the table is missing. -/
abbrev Database := Option (Finset Nat)

namespace Database

/-- `applied_versions`. -/
def applied (db : Database) : Finset Nat := db.getD ∅

def record (db : Database) (version : Nat) : Database := some (insert version db.applied)

def recordAll (db : Database) (versions : List Nat) : Database := versions.foldl record db

end Database

/-! ### Runs -/

/-- What a run meets: its flag, and how each of its calls ends. -/
structure RunWorld where
  dryRun : Bool
  connect : Except Exn Unit
  readApplied : Except Exn Unit
  apply : Text → Except Exn Unit
  close : Except Exn Unit

/-- What a run did: the versions it applied, the database after it, and its exit code. -/
structure MigrateRun where
  applied : List Nat
  db : Database
  result : Except Exn Nat

namespace Migrate

/-- The loop over the plan. -/
def applyPlan (world : RunWorld) : List (Nat × Text) → Database → MigrateRun
  | [], db => ⟨[], db, .ok 0⟩
  | (version, path) :: plan, db =>
      match world.apply path with
      | .error e => ⟨[], db, .error e⟩
      | .ok _ =>
          let rest := applyPlan world plan (db.record version)
          { rest with applied := version :: rest.applied }

/-- The body of the `try`. -/
def connected (world : RunWorld) (pending : List (Nat × Text)) (db : Database) : MigrateRun :=
  match world.readApplied with
  | .error e => ⟨[], db, .error e⟩
  | .ok _ =>
      let plan := pending.filter fun p => p.1 ∉ db.applied
      if plan = [] then ⟨[], db, .ok 0⟩
      else if world.dryRun then ⟨[], db, .ok 0⟩
      else applyPlan world plan db

def run (dir : MigrationsDir) (world : RunWorld) (db : Database) : MigrateRun :=
  match discover dir with
  | .error e => ⟨[], db, .error e⟩
  | .ok pending =>
      if pending = [] then ⟨[], db, .ok 0⟩
      else
        match world.connect with
        | .error e => ⟨[], db, .error e⟩
        | .ok _ =>
            let done := connected world pending db
            { done with result := world.close >>= fun _ => done.result }

/-- The database after run upon run. -/
def after (dir : MigrationsDir) (worlds : List RunWorld) (db : Database) : Database :=
  worlds.foldl (fun db world => (run dir world db).db) db

end Migrate

/-! ### The readiness check -/

structure SchemaCheck where
  applied : Option Int
  expected : Int
  ok : Bool
  reason : Option Text := none

/-- How the probe of the database may fail, by the handler it reaches. -/
inductive ProbeFault
  | undefinedTable
  | database (className : Text)
  | other (e : Exn)

def expectedSchemaVersion : Int := 3

def tableMissing (expected : Int) : SchemaCheck where
  applied := none
  expected := expected
  ok := false
  reason := some (text "schema_version table missing — no migrations applied")

/-- `verify_schema`: the query fails where the table is missing. -/
def verifySchema (fault : Option ProbeFault) (db : Database)
    (expected : Int := expectedSchemaVersion) : Except Exn SchemaCheck :=
  match fault, db with
  | some (.other e), _ => .error e
  | some (.database className), _ => .ok {
      applied := none
      expected := expected
      ok := false
      reason := some (text "database error: " ++ className) }
  | some .undefinedTable, _ | none, none => .ok (tableMissing expected)
  | none, some versions =>
      if h : versions.Nonempty then
        let applied : Int := versions.max' h
        if expected ≤ applied then .ok { applied := some applied, expected := expected, ok := true }
        else .ok {
          applied := some applied
          expected := expected
          ok := false
          reason := some (text "applied=" ++ intText applied ++ text " < expected=" ++
            intText expected ++ text ": run db/migrate.py") }
      else .ok {
        applied := some 0
        expected := expected
        ok := false
        reason := some (text "schema_version table is empty — no migrations recorded") }

end NexusBackend
