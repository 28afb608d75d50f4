import NexusBackend.Library.BoundedDeque
import NexusBackend.Library.Utf8
import NexusBackend.Persistence.Decode

/-!
`PersistenceWorker`: its buffer and counters, and what one message on the tick or the
audit channel does to them.

A handler that raises returns no new state: it writes nothing before it raises. The
database is the outcome of one insert; an exception of a library class is given the
nearest class that a handler names.
-/
namespace NexusBackend

open Python

/-- The parameters that `__init__` accepts; the interval is in seconds. -/
structure WorkerConfig where
  flushThreshold : Nat
  flushInterval : ℚ
  bufferMax : Nat
  threshold_pos : 1 ≤ flushThreshold
  interval_pos : 0 < flushInterval
  threshold_le : flushThreshold ≤ bufferMax

def WorkerConfig.default : WorkerConfig :=
  ⟨500, 5, 5000, by decide, by norm_num, by decide⟩

structure Worker (cfg : WorkerConfig) where
  buffer : BoundedDeque Tick cfg.bufferMax
  ticksInserted : Nat
  ticksDropped : Nat
  executionsInserted : Nat
  executionsFailed : Nat

namespace Worker

variable {cfg : WorkerConfig}

def init : Worker cfg := ⟨.empty, 0, 0, 0, 0⟩

/-- The data of a message, as the client hands it over. -/
inductive Message
  | bytes (data : List UInt8)
  | str (data : Text)

def Message.raw : Message → Text
  | bytes data => Utf8.decode (data.map UInt8.toNat)
  | str data => data

/-- What the interpreter fixes of a handler: how deep `json.loads` may recurse, and printing. -/
structure Interpreter extends Json.Printing where
  loadsLimit : Nat

/-! ### Ticks -/

/-- A tick that parses goes into the buffer; the one it pushes out is counted. -/
def enqueue (w : Worker cfg) (tick : Tick) : Worker cfg :=
  { w with
    buffer := w.buffer.append tick
    ticksDropped := if w.buffer.isFull then w.ticksDropped + 1 else w.ticksDropped }

def parseTick (py : Interpreter) (raw : Text) : Except Exn Tick :=
  Json.loads py.loadsLimit raw >>= dictToTick py.toPrinting

/-- The tick of a message; none where the message is logged and skipped. -/
def readTick (py : Interpreter) (msg : Message) : Except Exn (Option Tick) :=
  tryExcept (some <$> parseTick py msg.raw) decodeErrors fun _ => .ok none

def enqueueTick (py : Interpreter) (w : Worker cfg) (msg : Message) :
    Except Exn (Worker cfg) := do
  match ← readTick py msg with
  | none => return w
  | some tick => return w.enqueue tick

/-! ### Executions -/

def databaseErrors : List ExnKind :=
  [.named (text "PostgresError"), .named (text "InterfaceError"), .osError, .timeoutError]

/-- The outcome of the `INSERT` of a row. -/
abbrev Database := AuditRow → Except Exn Unit

/-- `ExecutionRepository.insert`. -/
def insert (py : Interpreter) (db : Database) (envelope : Json) : Except Exn Bool := do
  let row ← tryExcept (some <$> envelopeToRow py.toPrinting envelope) decodeErrors
    fun _ => .ok none
  match row with
  | none => return false
  | some row => tryExcept ((fun _ => true) <$> db row) databaseErrors fun _ => .ok false

/-- One more execution, inserted or failed. -/
def countExecution (w : Worker cfg) (ok : Bool) : Worker cfg :=
  if ok then { w with executionsInserted := w.executionsInserted + 1 }
  else { w with executionsFailed := w.executionsFailed + 1 }

def handleAudit (py : Interpreter) (db : Database) (w : Worker cfg) (msg : Message) :
    Except Exn (Worker cfg) := do
  let envelope ← tryExcept (some <$> Json.loads py.loadsLimit msg.raw) [.valueError]
    fun _ => .ok none
  match envelope with
  | none => return w.countExecution false
  | some envelope => return w.countExecution (← insert py db envelope)

/-! ### Messages that get past the handlers -/

/-- The JSON of the message is nested beyond the recursion limit. -/
def NestedTooDeep (py : Interpreter) (msg : Message) : Prop :=
  ∃ e, Json.loads py.loadsLimit msg.raw = .error e ∧ e.kind = .recursionError

def TickLeaks (py : Interpreter) (msg : Message) : Prop :=
  NestedTooDeep py msg ∨
    ∃ d, Json.loads py.loadsLimit msg.raw = .ok d ∧ Leaks (tickStages py.toPrinting d)

/-- The decoder leaks, or the database raises what is not named on the row. -/
def AuditLeaks (py : Interpreter) (db : Database) (msg : Message) : Prop :=
  NestedTooDeep py msg ∨
    ∃ env, Json.loads py.loadsLimit msg.raw = .ok env ∧
      (Leaks (envelopeStages py.toPrinting env) ∨
        ∃ row, envelopeToRow py.toPrinting env = .ok row ∧ Escapes databaseErrors (db row))

/-- The handler of ticks returns, with one tick appended or the buffer as it was. -/
def TickHandled (py : Interpreter) (w : Worker cfg) (msg : Message) : Prop :=
  ∃ w', enqueueTick py w msg = .ok w' ∧
    (w'.buffer = w.buffer ∨ ∃ tick, w'.buffer = w.buffer.append tick)

/-- The handler of executions returns, and has counted exactly one of the two outcomes. -/
def AuditHandled (py : Interpreter) (db : Database) (w : Worker cfg) (msg : Message) : Prop :=
  ∃ w', handleAudit py db w msg = .ok w' ∧
    (w'.executionsInserted = w.executionsInserted + 1 ∧ w'.executionsFailed = w.executionsFailed ∨
      w'.executionsInserted = w.executionsInserted ∧ w'.executionsFailed = w.executionsFailed + 1)

theorem loads_escapes_iff (classes : List ExnKind) (hv : .valueError ∈ classes)
    (hr : ExnKind.runtimeError ∉ classes ∧ ExnKind.recursionError ∉ classes) (limit : Nat)
    (s : Text) :
    Escapes classes (Json.loads limit s) ↔
      ∃ e, Json.loads limit s = .error e ∧ e.kind = .recursionError := by
  constructor
  · rintro ⟨e, h, he⟩
    refine ⟨e, h, (Json.loads_error h).resolve_left fun hi => ?_⟩
    rw [Exn.isInstance_of_subset hi (by simpa using hv)] at he
    cases he
  · rintro ⟨e, h, hk⟩
    refine ⟨e, h, ?_⟩
    rw [Exn.isInstance, List.any_eq_false]
    intro cls hcls
    rw [hk]
    simp only [ExnKind.isA, ExnKind.base, Bool.or_eq_true, decide_eq_true_eq, Option.some.injEq]
    rintro (rfl | rfl)
    · exact hr.2 hcls
    · exact hr.1 hcls

theorem enqueueTick_isOk_iff (py : Interpreter) (w : Worker cfg) (msg : Message) :
    (enqueueTick py w msg).isOk = true ↔ ¬ TickLeaks py msg := by
  have hloads := loads_escapes_iff decodeErrors (by simp [decodeErrors])
    (by simp [decodeErrors]) py.loadsLimit msg.raw
  have hleaks : TickLeaks py msg ↔ Escapes decodeErrors (parseTick py msg.raw) := by
    simp only [parseTick, TickLeaks, NestedTooDeep]
    rw [escapes_bind_iff, hloads]
    simp only [dictToTick_escapes_iff]
  rw [hleaks, ← escapes_map_iff _ _ some, ← tryExcept_isOk_iff _ _ (fun _ => .ok none) fun _ => rfl]
  simp only [enqueueTick]
  rw [isOk_bind]
  · exact Iff.rfl
  · intro tick
    cases tick with
    | none => exact ⟨_, rfl⟩
    | some tick => exact ⟨_, rfl⟩

/-- Where the handler of ticks returns, the buffer is as promised. -/
theorem enqueueTick_ok {py : Interpreter} {w w' : Worker cfg} {msg : Message}
    (h : enqueueTick py w msg = .ok w') :
    w'.buffer = w.buffer ∨ ∃ tick, w'.buffer = w.buffer.append tick := by
  simp only [enqueueTick] at h
  cases ht : readTick py msg with
  | error e =>
      rw [ht] at h
      cases h
  | ok tick =>
      rw [ht] at h
      cases tick with
      | none =>
          cases h
          exact .inl rfl
      | some tick =>
          cases h
          exact .inr ⟨tick, rfl⟩

theorem insert_isOk_iff (py : Interpreter) (db : Database) (env : Json) :
    (insert py db env).isOk = true ↔ ¬ (Leaks (envelopeStages py.toPrinting env) ∨
      ∃ row, envelopeToRow py.toPrinting env = .ok row ∧ Escapes databaseErrors (db row)) := by
  rw [← envelopeToRow_escapes_iff]
  unfold insert
  cases hrow : envelopeToRow py.toPrinting env with
  | ok row =>
      have hdb := tryExcept_isOk_iff ((fun _ => true) <$> db row) databaseErrors
        (fun _ => .ok false) fun _ => rfl
      rw [escapes_map_iff] at hdb
      refine hdb.trans (not_congr ⟨fun h => .inr ⟨row, rfl, h⟩, ?_⟩)
      rintro (h | ⟨row', ⟨⟩, h⟩)
      · exact absurd h (not_escapes_ok _ _)
      · exact h
  | error e =>
      have htry := tryExcept_isOk_iff (some <$> (.error e : Except Exn AuditRow)) decodeErrors
        (fun _ => .ok none) fun _ => rfl
      rw [escapes_map_iff] at htry
      have hout : (∃ row, Except.error e = (.ok row : Except Exn AuditRow) ∧
          Escapes databaseErrors (db row)) ↔ False := by simp
      rw [hout, or_false, ← htry]
      change (tryExcept (.error e) _ _ >>= _).isOk = _ ↔ (tryExcept (.error e) _ _).isOk = _
      unfold tryExcept
      dsimp only
      split <;> rfl

theorem handleAudit_isOk_iff (py : Interpreter) (db : Database) (w : Worker cfg)
    (msg : Message) : (handleAudit py db w msg).isOk = true ↔ ¬ AuditLeaks py db msg := by
  have hloads := loads_escapes_iff [.valueError] (by simp) (by simp) py.loadsLimit msg.raw
  unfold AuditLeaks NestedTooDeep
  rw [← hloads]
  unfold handleAudit
  cases hl : Json.loads py.loadsLimit msg.raw with
  | ok env =>
      have hinsert := insert_isOk_iff py db env
      have hcount : ((insert py db env) >>= fun ok =>
          (.ok (w.countExecution ok) : Except Exn (Worker cfg))).isOk = (insert py db env).isOk :=
        isOk_bind fun ok => ⟨_, rfl⟩
      change (insert py db env >>= fun ok => .ok (w.countExecution ok)).isOk = true ↔ _
      rw [hcount, hinsert]
      refine not_congr ⟨fun h => .inr ⟨env, rfl, h⟩, ?_⟩
      rintro (h | ⟨env', ⟨⟩, h⟩)
      · exact absurd h (not_escapes_ok _ _)
      · exact h
  | error e =>
      have htry := tryExcept_isOk_iff (some <$> (.error e : Except Exn Json)) [.valueError]
        (fun _ => .ok none) fun _ => rfl
      rw [escapes_map_iff] at htry
      have hout : (∃ env, Except.error e = (.ok env : Except Exn Json) ∧
          (Leaks (envelopeStages py.toPrinting env) ∨
            ∃ row, envelopeToRow py.toPrinting env = .ok row ∧
              Escapes databaseErrors (db row))) ↔ False := by simp
      rw [hout, or_false, ← htry]
      change (tryExcept (.error e) _ _ >>= _).isOk = _ ↔ (tryExcept (.error e) _ _).isOk = _
      unfold tryExcept
      dsimp only
      split <;> rfl

/-- Where the handler of executions returns, one of the two counters is up by one. -/
theorem handleAudit_ok {py : Interpreter} {db : Database} {w w' : Worker cfg} {msg : Message}
    (h : handleAudit py db w msg = .ok w') : ∃ ok, w' = w.countExecution ok := by
  simp only [handleAudit] at h
  cases ht : tryExcept (some <$> Json.loads py.loadsLimit msg.raw) [.valueError]
      fun _ => .ok none with
  | error e =>
      rw [ht] at h
      cases h
  | ok envelope =>
      rw [ht] at h
      cases envelope with
      | none =>
          cases h
          exact ⟨false, rfl⟩
      | some env =>
          cases hi : insert py db env with
          | error e =>
              change (insert py db env >>= _) = _ at h
              rw [hi] at h
              cases h
          | ok ok =>
              change (insert py db env >>= _) = _ at h
              rw [hi] at h
              cases h
              exact ⟨ok, rfl⟩

theorem tickHandled_iff_isOk (py : Interpreter) (w : Worker cfg) (msg : Message) :
    TickHandled py w msg ↔ (enqueueTick py w msg).isOk = true := by
  cases h : enqueueTick py w msg with
  | ok w' => exact iff_of_true ⟨w', h, enqueueTick_ok h⟩ rfl
  | error e =>
      refine iff_of_false ?_ nofun
      rintro ⟨w', h', -⟩
      rw [h] at h'
      cases h'

theorem auditHandled_iff_isOk (py : Interpreter) (db : Database) (w : Worker cfg)
    (msg : Message) : AuditHandled py db w msg ↔ (handleAudit py db w msg).isOk = true := by
  cases h : handleAudit py db w msg with
  | ok w' =>
      obtain ⟨ok, rfl⟩ := handleAudit_ok h
      refine iff_of_true ⟨_, h, ?_⟩ rfl
      cases ok with
      | true => exact .inl ⟨rfl, rfl⟩
      | false => exact .inr ⟨rfl, rfl⟩
  | error e =>
      refine iff_of_false ?_ nofun
      rintro ⟨w', h', -⟩
      rw [h] at h'
      cases h'

/-- Both handlers keep their promise exactly on the messages that do not leak. -/
theorem handlers_total_iff (py : Interpreter) (w : Worker cfg) (msg : Message) :
    (TickHandled py w msg ↔ ¬ TickLeaks py msg) ∧
      ∀ db, AuditHandled py db w msg ↔ ¬ AuditLeaks py db msg :=
  ⟨(tickHandled_iff_isOk py w msg).trans (enqueueTick_isOk_iff py w msg),
    fun db => (auditHandled_iff_isOk py db w msg).trans (handleAudit_isOk_iff py db w msg)⟩

/-! ### Messages that leak -/

/-- A thousand levels, as the interpreter allows by default. -/
def samplePython : Interpreter := ⟨⟨1000, 1000, fun _ => true⟩, 1000⟩

def badPriceText : Text :=
  text "\x7b\"symbol\": \"A\", \"ts\": \"2026-05-10\", \"price\": \"x\", \"volume\": 1\x7d"

def endlessQuantityText : Text :=
  text "\x7b\"signal\": \x7b\x7d, \"ts\": \"2026-05-10\", \"symbol\": \"A\", " ++
    text "\"mode\": \"live\", \"executed\": true, \"intended_action\": \"buy\", " ++
    text "\"intended_quantity\": Infinity\x7d"

/-- A tick message that is no object, a tick whose price is no number, and an execution
with an infinite quantity, before a database that accepts every row. -/
theorem messages_that_leak :
    ¬ TickHandled samplePython (init : Worker .default) (.str (text "[]")) ∧
      ¬ TickHandled samplePython (init : Worker .default) (.str badPriceText) ∧
      ¬ AuditHandled samplePython (fun _ => .ok ()) (init : Worker .default)
        (.str endlessQuantityText) := by
  rw [tickHandled_iff_isOk, tickHandled_iff_isOk, auditHandled_iff_isOk]
  refine ⟨?_, ?_, ?_⟩
  · decide
  · decide +kernel
  · decide +kernel

end Worker
end NexusBackend
