import NexusBackend.Library.IsoText
import NexusBackend.Library.JsonRoundTrip
import NexusBackend.Persistence.Worker
import NexusBackend.Trading.Audit
import NexusBackend.Trading.Wiring

/-!
An audit envelope on its way into the table `execution_audit`: the JSON text it is published
as, the row the worker makes of that text, and what the table demands of a row. Texts that
the database cannot encode are left to the database.
-/
namespace NexusBackend

open Python

/-! ### The message of an envelope -/

def nullableJson : Option Text → Json
  | none => .null
  | some s => .str s

namespace AuditVote

def toJson (c : AuditVote) : Json :=
  .obj [(text "agent_id", .str c.agentId), (text "action", .str c.action),
    (text "confidence", .float (.ofRat c.confidence))]

/-- The strings as they are read back from JSON. -/
def reread (c : AuditVote) : AuditVote :=
  { c with agentId := Json.rereadText c.agentId, action := Json.rereadText c.action }

end AuditVote

namespace AuditEnvelope

def rationaleJson (e : AuditEnvelope) : Json := .arr (e.signalRationale.map AuditVote.toJson)

def signalJson (e : AuditEnvelope) : Json :=
  .obj [(text "action", .str e.signalAction),
    (text "confidence", .float (.ofRat e.signalConfidence)),
    (text "score", .float (.ofRat e.signalScore)), (text "rationale", e.rationaleJson)]

/-- The envelope as a dictionary, its keys in the order of the source. -/
def toJson (e : AuditEnvelope) : Json :=
  .obj [(text "ts", .str e.ts), (text "symbol", .str e.symbol), (text "mode", .str e.mode),
    (text "executed", .bool e.executed), (text "intended_action", .str e.intendedAction),
    (text "intended_quantity", .int e.intendedQuantity), (text "order_id", nullableJson e.orderId),
    (text "blocked_by", nullableJson e.blockedBy), (text "reason", nullableJson e.reason),
    (text "signal", e.signalJson)]

def reread (e : AuditEnvelope) : AuditEnvelope :=
  { e with
    ts := Json.rereadText e.ts
    symbol := Json.rereadText e.symbol
    mode := Json.rereadText e.mode
    intendedAction := Json.rereadText e.intendedAction
    orderId := e.orderId.map Json.rereadText
    blockedBy := e.blockedBy.map Json.rereadText
    reason := e.reason.map Json.rereadText
    signalAction := Json.rereadText e.signalAction
    signalRationale := e.signalRationale.map AuditVote.reread }

/-- The parameters of the insert, with the time that its text stands for. -/
def toRow (e : AuditEnvelope) (ts : DateTime) : AuditRow where
  ts := ts
  symbol := e.symbol
  mode := e.mode
  executed := e.executed
  intendedAction := e.intendedAction
  intendedQuantity := e.intendedQuantity
  orderId := e.orderId
  blockedBy := e.blockedBy
  reason := e.reason
  signalAction := e.signalAction
  signalConfidence := .ofRat e.signalConfidence
  signalScore := .ofRat e.signalScore
  signalRationale := e.rationaleJson.dumpsText

end AuditEnvelope

/-- The row of an envelope: it is published as JSON, read back and taken apart. -/
def storedRow (py : Worker.Interpreter) (e : AuditEnvelope) : Except Exn AuditRow := do
  let payload ← e.toJson.dumps py.toPrinting
  let env ← Json.loads py.loadsLimit payload
  envelopeToRow py.toPrinting env

/-! ### From the envelope to the row -/

theorem nullableJson_reread (x : Option Text) :
    (nullableJson x).reread = nullableJson (x.map Json.rereadText) := by
  cases x <;> rfl

namespace AuditEnvelope

theorem rereadItems_votes (votes : List AuditVote) :
    Json.rereadItems (votes.map AuditVote.toJson) =
      (votes.map AuditVote.reread).map AuditVote.toJson := by
  induction votes with
  | nil => rfl
  | cons c votes ih =>
      rw [List.map_cons, List.map_cons, List.map_cons, Json.rereadItems, ih]
      rfl

theorem toJson_reread (e : AuditEnvelope) : e.toJson.reread = e.reread.toJson := by
  simp only [toJson, Json.reread, Json.rereadPairs, nullableJson_reread, signalJson, rationaleJson,
    rereadItems_votes]
  rfl

theorem rereadable_ofRat (q : ℚ) : (Json.float (.ofRat q)).Rereadable :=
  fun _ h => isDyadic_of_ofRat h

theorem rereadable_vote (c : AuditVote) : c.toJson.Rereadable := by
  refine Json.rereadable_obj (rfl : _ = [text "agent_id", text "action", text "confidence"])
    (by decide) ?_
  simp only [List.map_cons, List.map_nil, List.forall_mem_cons]
  exact ⟨trivial, trivial, rereadable_ofRat _, nofun⟩

theorem rereadable_rationale (e : AuditEnvelope) : e.rationaleJson.Rereadable := by
  apply Json.rereadable_arr
  intro v hv
  obtain ⟨c, -, rfl⟩ := List.mem_map.mp hv
  exact rereadable_vote c

theorem rereadable_signal (e : AuditEnvelope) : e.signalJson.Rereadable := by
  refine Json.rereadable_obj
    (rfl : _ = [text "action", text "confidence", text "score", text "rationale"]) (by decide) ?_
  simp only [List.map_cons, List.map_nil, List.forall_mem_cons]
  exact ⟨trivial, rereadable_ofRat _, rereadable_ofRat _, e.rereadable_rationale, nofun⟩

theorem rereadable_nullableJson (x : Option Text) : (nullableJson x).Rereadable := by
  cases x <;> exact trivial

theorem rereadable_toJson (e : AuditEnvelope)
    (hq : (natDigits e.intendedQuantity.natAbs).length ≤ maxIntDigits) : e.toJson.Rereadable := by
  refine Json.rereadable_obj
    (rfl : _ = [text "ts", text "symbol", text "mode", text "executed", text "intended_action",
      text "intended_quantity", text "order_id", text "blocked_by", text "reason", text "signal"])
    (by decide) ?_
  simp only [List.map_cons, List.map_nil, List.forall_mem_cons]
  exact ⟨trivial, trivial, trivial, trivial, trivial, hq, rereadable_nullableJson _,
    rereadable_nullableJson _, rereadable_nullableJson _, e.rereadable_signal, nofun⟩

theorem depth_rationale_le (e : AuditEnvelope) : e.rationaleJson.depth ≤ 2 := by
  apply Json.depth_arr_le
  intro v hv
  obtain ⟨c, -, rfl⟩ := List.mem_map.mp hv
  exact le_rfl

theorem depth_toJson_le (e : AuditEnvelope) : e.toJson.depth ≤ 4 := by
  have hnullable (x : Option Text) : (nullableJson x).depth ≤ 3 := by
    cases x <;> exact Nat.zero_le 3
  have hsignal : e.signalJson.depth ≤ 3 := by
    apply Json.depth_obj_le
    simp only [List.map_cons, List.map_nil, List.forall_mem_cons]
    exact ⟨Nat.zero_le 2, Nat.zero_le 2, Nat.zero_le 2, e.depth_rationale_le, nofun⟩
  apply Json.depth_obj_le
  simp only [List.map_cons, List.map_nil, List.forall_mem_cons]
  exact ⟨Nat.zero_le 3, Nat.zero_le 3, Nat.zero_le 3, Nat.zero_le 3, Nat.zero_le 3, Nat.zero_le 3,
    hnullable _, hnullable _, hnullable _, hsignal, nofun⟩

end AuditEnvelope

/-! ### The row of a dictionary -/

theorem nullableStr_nullableJson (pr : Json.Printing) (x : Option Text) :
    nullableStr pr (nullableJson x) = .ok x := by
  cases x with
  | none => rfl
  | some s => exact congrArg (some <$> ·) (toStr_str pr s)

/-- Taking an envelope apart gives its fields. -/
theorem envelopeToRow_toJson {pr : Json.Printing} (e : AuditEnvelope) {ts : DateTime}
    (hts : fromisoformat? e.ts = some ts) (hdumps : 2 ≤ pr.dumpsLimit) :
    envelopeToRow pr e.toJson = .ok (e.toRow ts) := by
  have hiso : required e.toJson "ts" (fun v => v.toStr pr >>= fromisoformat) = .ok ts := by
    change ((Json.str e.ts).toStr pr >>= fromisoformat) = _
    rw [toStr_str]
    change fromisoformat e.ts = _
    rw [fromisoformat, hts]
  have hsymbol : required e.toJson "symbol" (·.toStr pr) = .ok e.symbol := toStr_str pr e.symbol
  have hmode : required e.toJson "mode" (·.toStr pr) = .ok e.mode := toStr_str pr e.mode
  have hexecuted : required e.toJson "executed" (fun v => .ok v.truthy) = .ok e.executed := rfl
  have haction : required e.toJson "intended_action" (·.toStr pr) = .ok e.intendedAction :=
    toStr_str pr e.intendedAction
  have hquantity : optional e.toJson "intended_quantity" (.int 0) Json.toInt =
      .ok e.intendedQuantity := rfl
  have horder : optional e.toJson "order_id" .null (nullableStr pr) = .ok e.orderId :=
    nullableStr_nullableJson pr e.orderId
  have hblocked : optional e.toJson "blocked_by" .null (nullableStr pr) = .ok e.blockedBy :=
    nullableStr_nullableJson pr e.blockedBy
  have hreason : optional e.toJson "reason" .null (nullableStr pr) = .ok e.reason :=
    nullableStr_nullableJson pr e.reason
  have hsignal : e.toJson.index (text "signal") = .ok e.signalJson := rfl
  have hdirection : required e.signalJson "action" (·.toStr pr) = .ok e.signalAction :=
    toStr_str pr e.signalAction
  have hconfidence : required e.signalJson "confidence" Json.toFloat =
      .ok (.ofRat e.signalConfidence) := rfl
  have hscore : required e.signalJson "score" Json.toFloat = .ok (.ofRat e.signalScore) := rfl
  have hrationale : optional e.signalJson "rationale" (.arr []) (·.dumps pr) =
      .ok e.rationaleJson.dumpsText := if_pos (e.depth_rationale_le.trans hdumps)
  simp only [envelopeToRow, hsignal, hiso, hsymbol, hmode, hexecuted, haction, hquantity, horder,
    hblocked, hreason, hdirection, hconfidence, hscore, hrationale, ok_bind]
  rfl

/-- The row of an envelope that has a size the reader takes. -/
theorem storedRow_eq {py : Worker.Interpreter} (hdumps : 4 ≤ py.dumpsLimit)
    (hloads : 4 ≤ py.loadsLimit) (e : AuditEnvelope) {t : UtcTime}
    (hts : e.ts = t.toDateTime.isoformat)
    (hq : (natDigits e.intendedQuantity.natAbs).length ≤ maxIntDigits) :
    storedRow py e = .ok (e.reread.toRow t.toDateTime) := by
  have hpayload : e.toJson.dumps py.toPrinting = .ok e.toJson.dumpsText :=
    if_pos (e.depth_toJson_le.trans hdumps)
  have hread := Json.loads_dumpsText_reread (e.rereadable_toJson hq)
    (e.depth_toJson_le.trans hloads)
  have hiso : fromisoformat? e.reread.ts = some t.toDateTime := by
    change fromisoformat? (Json.rereadText e.ts) = _
    rw [hts, Json.rereadText_of_isUnicode (Json.isUnicode_of_ascii (isoformat_ascii t)),
      fromisoformat?_isoformat]
  rw [storedRow, hpayload]
  change (Json.loads py.loadsLimit e.toJson.dumpsText >>= _) = _
  rw [hread, e.toJson_reread]
  exact envelopeToRow_toJson e.reread hiso (by omega)

/-- The worker that receives the message of an envelope inserts this row, and counts it. -/
theorem handleAudit_published {cfg : WorkerConfig} {py : Worker.Interpreter}
    (db : Worker.Database) (worker : Worker cfg) {e : AuditEnvelope} {payload : Text}
    {row : AuditRow} (hpayload : e.toJson.dumps py.toPrinting = .ok payload)
    (hrow : storedRow py e = .ok row) :
    Worker.handleAudit py db worker (.str payload) =
      worker.countExecution <$>
        tryExcept ((fun _ => true) <$> db row) Worker.databaseErrors fun _ => .ok false := by
  rw [storedRow, hpayload, ok_bind] at hrow
  obtain ⟨env, hread, henv⟩ := bind_eq_ok_iff.mp hrow
  have hraw : Worker.Message.raw (.str payload) = payload := rfl
  have hinsert : Worker.insert py db env =
      tryExcept ((fun _ => true) <$> db row) Worker.databaseErrors fun _ => .ok false := by
    rw [Worker.insert, henv]
    rfl
  rw [Worker.handleAudit, hraw, hread]
  change (worker.countExecution <$> Worker.insert py db env) = _
  rw [hinsert]

/-! ### The constraints of the table -/

/-- `x BETWEEN lo AND hi`, which NaN and the infinities fail. -/
def Within (x : Python.Float) (lo hi : ℚ) : Prop := ∃ q, x = .finite q ∧ lo ≤ q ∧ q ≤ hi

/-- What the columns of `execution_audit` admit; those that are `NOT NULL` have no `none` here. -/
structure AuditRow.MeetsConstraints (row : AuditRow) : Prop where
  mode : row.mode ∈ [text "live", text "shadow", text "noop"]
  intended_action : row.intendedAction ∈ [text "buy", text "hold", text "sell"]
  intended_quantity : -2 ^ 31 ≤ row.intendedQuantity ∧ row.intendedQuantity < 2 ^ 31
  signal_action : row.signalAction ∈ [text "buy", text "hold", text "sell"]
  signal_confidence : Within row.signalConfidence 0 1
  signal_score : Within row.signalScore (-1) 1

/-- What the columns of one row say of each other. -/
structure AuditRow.Coherent (row : AuditRow) : Prop where
  executed : row.executed = true → row.mode = text "live" ∧ row.blockedBy = none ∧
    0 < row.intendedQuantity ∧ row.intendedAction = row.signalAction ∧
    row.signalAction ≠ text "hold"
  dry : row.mode = text "noop" ∨ row.mode = text "shadow" → row.executed = false
  blocked : row.blockedBy ≠ none → row.mode = text "noop" ∧ row.intendedAction = text "hold" ∧
    row.intendedQuantity = 0 ∧ row.signalAction ≠ text "hold"
  score : row.signalScore.abs = row.signalConfidence

theorem Action.value_mem (a : Action) : a.value ∈ [text "buy", text "hold", text "sell"] := by
  cases a <;> decide

theorem Action.value_ne_hold {a : Action} (h : a ≠ .hold) : a.value ≠ text "hold" := by
  cases a with
  | buy => decide
  | hold => exact absurd rfl h
  | sell => decide

theorem ExecutionMode.value_mem (m : ExecutionMode) :
    m.value ∈ [text "live", text "shadow", text "noop"] := by
  cases m <;> decide

theorem rereadText_action (a : Action) : Json.rereadText a.value = a.value :=
  Json.rereadText_of_isUnicode (by cases a <;> decide)

theorem rereadText_mode (m : ExecutionMode) : Json.rereadText m.value = m.value :=
  Json.rereadText_of_isUnicode (by cases m <;> decide)

theorem OrderExecutor.Executed.quantity_range {W : Type*} {ex : OrderExecutor W} {w : W}
    {guarded : GuardedSignal} {now : UtcTime} {result : ExecutionResult}
    (h : ex.Executed w guarded now result)
    (hsize : ∀ q, ex.sizer.quantity w guarded.effectiveSignal = .ok q → q < 2 ^ 31) :
    0 ≤ result.intendedQuantity ∧ result.intendedQuantity < 2 ^ 31 := by
  have hzero : (0 : Int) < 2 ^ 31 := by decide
  cases h with
  | held _ => exact ⟨le_rfl, hzero⟩
  | unsized _ => exact ⟨le_rfl, hzero⟩
  | shadowed _ hq hpos => exact ⟨hpos.le, hsize _ hq⟩
  | ordered _ hq hpos outcome =>
      rw [OrderExecutor.settle_intendedQuantity]
      exact ⟨hpos.le, hsize _ hq⟩

theorem abs_score_le (signal : TradeSignal) : |signal.score| ≤ 1 := abs_le.mpr signal.score_range

/-- The row of a decision. -/
def decisionRow (signal : TradeSignal) (guarded : GuardedSignal) (result : ExecutionResult) :
    AuditRow :=
  (buildAuditEnvelope signal guarded result).reread.toRow result.ts.toDateTime

theorem decisionRow_meetsConstraints {signal : TradeSignal} {guarded : GuardedSignal}
    {result : ExecutionResult}
    (hq : 0 ≤ result.intendedQuantity ∧ result.intendedQuantity < 2 ^ 31) :
    (decisionRow signal guarded result).MeetsConstraints where
  mode := by
    change Json.rereadText result.mode.value ∈ _
    rw [rereadText_mode]
    exact result.mode.value_mem
  intended_action := by
    change Json.rereadText result.intendedAction.value ∈ _
    rw [rereadText_action]
    exact result.intendedAction.value_mem
  intended_quantity := ⟨by change _ ≤ result.intendedQuantity; omega, hq.2⟩
  signal_action := by
    change Json.rereadText signal.action.value ∈ _
    rw [rereadText_action]
    exact signal.action.value_mem
  signal_confidence := by
    have hrange := signal.confidence_range
    obtain ⟨v, hv, habs, hsign⟩ := ofRat_unit (abs_le.mpr ⟨by linarith, hrange.2⟩)
    exact ⟨v, hv, hsign hrange.1, (abs_le.mp habs).2⟩
  signal_score := by
    obtain ⟨v, hv, habs, -⟩ := ofRat_unit (abs_score_le signal)
    exact ⟨v, hv, abs_le.mp habs⟩

theorem decisionRow_score {signal : TradeSignal} (hscore : signal.confidence = |signal.score|)
    (guarded : GuardedSignal) (result : ExecutionResult) :
    (decisionRow signal guarded result).signalScore.abs =
      (decisionRow signal guarded result).signalConfidence := by
  change (Python.Float.ofRat signal.score).abs = .ofRat signal.confidence
  rw [hscore, ofRat_abs (abs_score_le signal)]

/-- A signal that was let through, at each exit of the executor. -/
theorem decisionRow_coherent_allow {W : Type*} {ex : OrderExecutor W} {w : W}
    {signal : TradeSignal} {now : UtcTime} {result : ExecutionResult}
    (hscore : signal.confidence = |signal.score|)
    (h : ex.Executed w (GuardrailPipeline.allow signal) now result) :
    (decisionRow signal (GuardrailPipeline.allow signal) result).Coherent := by
  cases h with
  | held _ => exact ⟨nofun, fun _ => rfl, fun h => absurd rfl h, decisionRow_score hscore _ _⟩
  | unsized _ => exact ⟨nofun, fun _ => rfl, fun h => absurd rfl h, decisionRow_score hscore _ _⟩
  | shadowed _ _ _ =>
      exact ⟨nofun, fun _ => rfl, fun h => absurd rfl h, decisionRow_score hscore _ _⟩
  | @ordered hold quantity hsize hpos outcome =>
      have hmode (call : OrderCall) :
          Json.rereadText (OrderExecutor.settle call now outcome).mode.value = text "live" := by
        rw [OrderExecutor.settle_mode, rereadText_mode]
        rfl
      refine ⟨fun _ => ⟨hmode _, rfl, ?_, ?_, ?_⟩, ?_, fun h => absurd rfl h,
        decisionRow_score hscore _ _⟩
      · change 0 < (OrderExecutor.settle _ now outcome).intendedQuantity
        rw [OrderExecutor.settle_intendedQuantity]
        exact hpos
      · change Json.rereadText (OrderExecutor.settle _ now outcome).intendedAction.value = _
        rw [OrderExecutor.settle_intendedAction]
        rfl
      · change Json.rereadText signal.action.value ≠ _
        rw [rereadText_action]
        exact Action.value_ne_hold hold
      · intro h
        change Json.rereadText (OrderExecutor.settle _ now outcome).mode.value = _ ∨
          Json.rereadText (OrderExecutor.settle _ now outcome).mode.value = _ at h
        rw [hmode] at h
        exact absurd h (by decide)

/-- A signal that a guard blocked is held. -/
theorem decisionRow_coherent_block {W : Type*} {ex : OrderExecutor W} {w : W}
    {signal : TradeSignal} {guardId reason : Text} {now : UtcTime} {result : ExecutionResult}
    (hscore : signal.confidence = |signal.score|) (hold : signal.action ≠ .hold)
    (h : ex.Executed w (GuardrailPipeline.block signal guardId reason) now result) :
    (decisionRow signal (GuardrailPipeline.block signal guardId reason) result).Coherent := by
  cases h with
  | held _ =>
      refine ⟨nofun, fun _ => rfl, fun _ => ⟨?_, ?_, rfl, ?_⟩, decisionRow_score hscore _ _⟩
      · exact rereadText_mode .noop
      · exact rereadText_action .hold
      · change Json.rereadText signal.action.value ≠ _
        rw [rereadText_action]
        exact Action.value_ne_hold hold
  | unsized hne => exact absurd rfl hne
  | shadowed hne _ _ => exact absurd rfl hne
  | ordered hne _ _ _ => exact absurd rfl hne

/-- The row of an execution, as the worker makes it. -/
theorem storedRow_decision {W : Type*} {ex : OrderExecutor W} {w : W} {py : Worker.Interpreter}
    {guarded : GuardedSignal} {now : UtcTime} {result : ExecutionResult}
    (hdumps : 4 ≤ py.dumpsLimit) (hloads : 4 ≤ py.loadsLimit)
    (h : ex.Executed w guarded now result)
    (hsize : ∀ q, ex.sizer.quantity w guarded.effectiveSignal = .ok q → q < 2 ^ 31)
    (signal : TradeSignal) :
    storedRow py (buildAuditEnvelope signal guarded result) =
      .ok (decisionRow signal guarded result) := by
  have hq := h.quantity_range hsize
  have hdigits : (natDigits result.intendedQuantity.natAbs).length ≤ 10 :=
    length_natDigits_le (by decide) (by omega)
  exact storedRow_eq hdumps hloads _ rfl (hdigits.trans (by decide))

/-- A tick publishes at most one envelope; the table takes its row, and the row is coherent. -/
theorem TradingPipeline.audit_row_coherent {W : Type*} (p : TradingPipeline W)
    (py : Worker.Interpreter) (hdumps : 4 ≤ py.dumpsLimit) (hloads : 4 ≤ py.loadsLimit)
    (hsize : ∀ w signal q, p.executor.sizer.quantity w signal = .ok q → q < 2 ^ 31)
    (s : PipelineState) (inp : TickInput W) :
    (auditsOf (p.onTick s inp).events).length ≤ 1 ∧
      ∀ e ∈ auditsOf (p.onTick s inp).events, ∃ row, storedRow py e = .ok row ∧
        row.MeetsConstraints ∧ row.Coherent := by
  obtain hnone | ⟨guarded, result, made, hg, hx, hone⟩ := p.auditsOf_onTick s inp
  · rw [hnone]
    exact ⟨Nat.zero_le 1, nofun⟩
  rw [hone]
  refine ⟨le_rfl, fun e he => ?_⟩
  rw [List.mem_singleton.mp he]
  have hexecuted := OrderExecutor.execute_executed hx
  have hscore := p.decision_confidence inp
  refine ⟨_, storedRow_decision hdumps hloads hexecuted (hsize _ _) _,
    decisionRow_meetsConstraints (hexecuted.quantity_range (hsize _ _)), ?_⟩
  obtain rfl | ⟨hold, guard, reason, -, rfl⟩ := GuardrailPipeline.evaluate_cases hg
  · exact decisionRow_coherent_allow hscore hexecuted
  · exact decisionRow_coherent_block hscore hold hexecuted

/-- The steady buyer with a publisher that accepts every envelope. -/
def auditedPipeline : TradingPipeline Unit :=
  { steadyPipeline .buy with auditPublisher := some fun _ _ => .ok () }

theorem auditedPipeline_row_coherent : ∃ e row,
    auditsOf (auditedPipeline.onTick (.initial emptyContext) (sampleInput 0)).events = [e] ∧
      storedRow Worker.samplePython e = .ok row ∧ row.MeetsConstraints ∧ row.Coherent := by
  have hsize (w : Unit) (signal : TradeSignal) (q : Int)
      (h : auditedPipeline.executor.sizer.quantity w signal = .ok q) : q < 2 ^ 31 := by
    cases h
    decide
  obtain ⟨-, hrows⟩ := auditedPipeline.audit_row_coherent Worker.samplePython (by decide)
    (by decide) hsize (.initial emptyContext) (sampleInput 0)
  have hlen : (auditsOf (auditedPipeline.onTick (.initial emptyContext)
      (sampleInput 0)).events).length = 1 := by
    decide +kernel
  obtain ⟨e, hone⟩ := List.length_eq_one_iff.mp hlen
  obtain ⟨row, hrow⟩ := hrows e (hone ▸ List.mem_cons_self)
  exact ⟨e, row, hone, hrow⟩

end NexusBackend
