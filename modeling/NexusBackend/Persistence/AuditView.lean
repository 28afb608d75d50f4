import NexusBackend.Persistence.AuditRow

/-!
What an operator is shown of an audit row: the row comes back from the database, and
`_row_to_dict` turns it into the dictionary of the API. The column of type JSONB is a function
of the text that was put in; it keeps arrays of flat objects, with the keys in an order of its
own.
-/
namespace NexusBackend

open Python

/-! ### The dictionary of a row -/

/-- `signal_rationale` as the driver hands it over. -/
inductive RawRationale
  | str (s : Text)
  | list (items : List Json)
  | other

structure AuditDict where
  ts : DateTime
  symbol : Text
  mode : Text
  executed : Bool
  intendedAction : Text
  intendedQuantity : Int
  orderId : Option Text
  blockedBy : Option Text
  reason : Option Text
  signalAction : Text
  signalConfidence : Python.Float
  signalScore : Python.Float
  signalRationale : Json

/-- The parsed rationale: a text that is no JSON counts as empty. -/
def parseRationale (limit : Nat) : RawRationale → Except Exn Json
  | .str s => tryExcept (Json.loads limit s) [.valueError, .typeError] fun _ => .ok (.arr [])
  | .list items => .ok (.arr items)
  | .other => .ok (.arr [])

/-- `_row_to_dict`, of the stored columns and of the rationale as it comes back. -/
def rowToDict (limit : Nat) (row : AuditRow) (raw : RawRationale) : Except Exn AuditDict := do
  let rationale ← parseRationale limit raw
  return ⟨row.ts, row.symbol, row.mode, row.executed, row.intendedAction, row.intendedQuantity,
    row.orderId, row.blockedBy, row.reason, row.signalAction, row.signalConfidence,
    row.signalScore, rationale⟩

/-- The dictionary for an envelope: it is stored as a row and the row is read back. -/
def shownDict (py : Worker.Interpreter) (jsonb : Text → RawRationale) (e : AuditEnvelope) :
    Except Exn AuditDict := do
  let row ← storedRow py e
  rowToDict py.loadsLimit row (jsonb row.signalRationale)

/-! ### What the database keeps -/

/-- A text that the database can hold. -/
def Storable (s : Text) : Prop := Json.IsUnicode s ∧ 0 ∉ s

/-- Every text of the envelope is one that the database can hold. -/
structure AuditEnvelope.Storable (e : AuditEnvelope) : Prop where
  symbol : NexusBackend.Storable e.symbol
  orderId : ∀ s ∈ e.orderId, NexusBackend.Storable s
  blockedBy : ∀ s ∈ e.blockedBy, NexusBackend.Storable s
  reason : ∀ s ∈ e.reason, NexusBackend.Storable s
  agents : ∀ c ∈ e.signalRationale, NexusBackend.Storable c.agentId

/-- A text, or a float of the unit interval. -/
def FlatValue : Json → Prop
  | .str s => Storable s
  | .float x => ∃ q, x = .finite q ∧ IsDyadic q ∧ |q| ≤ 1
  | _ => False

/-- An object of texts and such floats, each under a key of its own. -/
def FlatObject (pairs : List (Text × Json)) : Prop :=
  (pairs.map Prod.fst).Nodup ∧ ∀ p ∈ pairs, Storable p.1 ∧ FlatValue p.2

/-- The column gives an array of flat objects back, as a text or parsed, with the keys of each
object in some order. -/
def KeepsObjects (limit : Nat) (jsonb : Text → RawRationale) : Prop :=
  ∀ items, (∀ pairs ∈ items, FlatObject pairs) → ∃ objects, List.Forall₂ List.Perm items objects ∧
    ((∃ s, jsonb (Json.arr (items.map .obj)).dumpsText = .str s ∧
        Json.loads limit s = .ok (.arr (objects.map .obj))) ∨
      jsonb (Json.arr (items.map .obj)).dumpsText = .list (objects.map .obj))

/-! ### The contributors of a rationale -/

/-- Agent, action and confidence of one entry. -/
def contributor? : Json → Option (Text × Text × Python.Float)
  | .obj pairs =>
      match Json.get? pairs (text "agent_id"), Json.get? pairs (text "action"),
        Json.get? pairs (text "confidence") with
      | some (.str agentId), some (.str action), some (.float confidence) =>
          some (agentId, action, confidence)
      | _, _, _ => none
  | _ => none

def contributors? : Json → Option (List (Text × Text × Python.Float))
  | .arr items => items.mapM contributor?
  | _ => none

def AuditVote.entry (c : AuditVote) : Text × Text × Python.Float :=
  (c.agentId, c.action, .ofRat c.confidence)

def AuditVote.pairs (c : AuditVote) : List (Text × Json) :=
  [(text "agent_id", .str c.agentId), (text "action", .str c.action),
    (text "confidence", .float (.ofRat c.confidence))]

/-- An entry keeps its fields whatever the order of its keys. -/
theorem contributor?_of_perm (c : AuditVote) {pairs : List (Text × Json)}
    (h : c.pairs.Perm pairs) : contributor? (.obj pairs) = some c.entry := by
  have hkeys : (pairs.map Prod.fst).Nodup := by
    rw [← (h.map Prod.fst).nodup_iff]
    exact (by decide : [text "agent_id", text "action", text "confidence"].Nodup)
  have hagent : Json.get? pairs (text "agent_id") = some (.str c.agentId) :=
    Json.get?_of_mem hkeys (h.subset List.mem_cons_self)
  have haction : Json.get? pairs (text "action") = some (.str c.action) :=
    Json.get?_of_mem hkeys (h.subset (List.mem_cons_of_mem _ List.mem_cons_self))
  have hconfidence : Json.get? pairs (text "confidence") = some (.float (.ofRat c.confidence)) :=
    Json.get?_of_mem hkeys
      (h.subset (List.mem_cons_of_mem _ (List.mem_cons_of_mem _ List.mem_cons_self)))
  rw [contributor?, hagent, haction, hconfidence]
  rfl

theorem contributors?_of_perm {votes : List AuditVote} {objects : List (List (Text × Json))}
    (h : List.Forall₂ List.Perm (votes.map AuditVote.pairs) objects) :
    contributors? (.arr (objects.map .obj)) = some (votes.map AuditVote.entry) := by
  rw [contributors?]
  induction votes generalizing objects with
  | nil =>
      cases h
      rfl
  | cons c votes ih =>
      cases h with
      | cons hc hvotes =>
          rw [List.map_cons, List.mapM_cons, contributor?_of_perm c hc, ih hvotes]
          rfl

/-- Rationales that meet the bounds of their fields are arrays of flat objects. -/
theorem flatObject_pairs {c : AuditVote} (hagent : Storable c.agentId) (haction : Storable c.action)
    (hconfidence : |c.confidence| ≤ 1) : FlatObject c.pairs := by
  obtain ⟨v, hv, habs, -⟩ := ofRat_unit hconfidence
  refine ⟨(by decide : [text "agent_id", text "action", text "confidence"].Nodup), ?_⟩
  have hkeys : ∀ k ∈ [text "agent_id", text "action", text "confidence"],
      Json.IsUnicode k ∧ 0 ∉ k := by
    decide
  simp only [List.forall_mem_cons] at hkeys
  simp only [AuditVote.pairs, List.forall_mem_cons]
  exact ⟨⟨hkeys.1, hagent⟩, ⟨hkeys.2.1, haction⟩,
    ⟨hkeys.2.2.1, v, hv, isDyadic_of_ofRat hv, habs⟩, nofun⟩

/-! ### The dictionary of a decision -/

theorem storable_action (a : Action) : Storable a.value := by
  cases a with
  | buy => exact ⟨by decide, by decide⟩
  | hold => exact ⟨by decide, by decide⟩
  | sell => exact ⟨by decide, by decide⟩

theorem map_rereadText {x : Option Text} (h : ∀ s ∈ x, Storable s) :
    x.map Json.rereadText = x := by
  cases x with
  | none => rfl
  | some s => rw [Option.map_some, Json.rereadText_of_isUnicode (h s rfl).1]

/-- Texts that can be stored are read back from JSON as they are. -/
theorem reread_buildAuditEnvelope {signal : TradeSignal} {guarded : GuardedSignal}
    {result : ExecutionResult} (h : (buildAuditEnvelope signal guarded result).Storable) :
    (buildAuditEnvelope signal guarded result).reread =
      buildAuditEnvelope signal guarded result := by
  have hts := Json.rereadText_of_isUnicode (Json.isUnicode_of_ascii (isoformat_ascii result.ts))
  have hsymbol := Json.rereadText_of_isUnicode h.symbol.1
  have hvotes : (buildAuditEnvelope signal guarded result).signalRationale.map AuditVote.reread =
      (buildAuditEnvelope signal guarded result).signalRationale := by
    refine (List.map_congr_left fun c hc => ?_).trans (List.map_id _)
    obtain ⟨contributor, -, rfl⟩ := List.mem_map.mp hc
    have hagent := Json.rereadText_of_isUnicode (h.agents _ hc).1
    simp only [AuditVote.reread, hagent, rereadText_action, id]
  rw [AuditEnvelope.reread, hsymbol, map_rereadText h.orderId, map_rereadText h.blockedBy,
    map_rereadText h.reason, hvotes]
  simp only [buildAuditEnvelope, hts, rereadText_mode, rereadText_action]

/-- The votes behind a decision, as the rationale lists them. -/
def votesOf (signal : TradeSignal) : List (Text × Text × Python.Float) :=
  signal.contributors.map fun c => (c.agentId, c.action.value, .ofRat c.confidence)

/-- The rationale comes back with its contributors. -/
theorem parseRationale_kept {limit : Nat} {jsonb : Text → RawRationale}
    (hjsonb : KeepsObjects limit jsonb) {signal : TradeSignal} {guarded : GuardedSignal}
    {result : ExecutionResult} (h : (buildAuditEnvelope signal guarded result).Storable) :
    ∃ rationale, contributors? rationale = some (votesOf signal) ∧
      parseRationale limit
        (jsonb (buildAuditEnvelope signal guarded result).rationaleJson.dumpsText) =
          .ok rationale := by
  have hflat : ∀ pairs ∈ (buildAuditEnvelope signal guarded result).signalRationale.map
      AuditVote.pairs, FlatObject pairs := by
    intro pairs hpairs
    obtain ⟨c, hc, rfl⟩ := List.mem_map.mp hpairs
    have hagent := h.agents c hc
    obtain ⟨contributor, -, rfl⟩ := List.mem_map.mp hc
    have hrange := contributor.confidence_range
    exact flatObject_pairs hagent (storable_action _) (abs_le.mpr ⟨by linarith, hrange.2⟩)
  obtain ⟨objects, hperm, hback⟩ := hjsonb _ hflat
  have hentries := contributors?_of_perm hperm
  have hvotes : (buildAuditEnvelope signal guarded result).signalRationale.map AuditVote.entry =
      votesOf signal := by
    rw [votesOf, buildAuditEnvelope, List.map_map]
    rfl
  rw [hvotes] at hentries
  have htext : Json.arr (((buildAuditEnvelope signal guarded result).signalRationale.map
      AuditVote.pairs).map .obj) =
        (buildAuditEnvelope signal guarded result).rationaleJson := by
    rw [AuditEnvelope.rationaleJson, List.map_map]
    rfl
  rw [htext] at hback
  refine ⟨_, hentries, ?_⟩
  obtain ⟨s, hs, hloads⟩ | hlist := hback
  · rw [hs, parseRationale, hloads, tryExcept_ok]
  · rw [hlist, parseRationale]

/-- What is shown of a decision: the blocker of the verdict, but the order id and the reason of
the execution. -/
theorem shownDict_eq {W : Type*} {ex : OrderExecutor W} {w : W} {py : Worker.Interpreter}
    {jsonb : Text → RawRationale} {signal : TradeSignal} {guarded : GuardedSignal}
    {now : UtcTime} {result : ExecutionResult} (hdumps : 4 ≤ py.dumpsLimit)
    (hloads : 4 ≤ py.loadsLimit) (hjsonb : KeepsObjects py.loadsLimit jsonb)
    (hsize : ∀ q, ex.sizer.quantity w guarded.effectiveSignal = .ok q → q < 2 ^ 31)
    (hstored : (buildAuditEnvelope signal guarded result).Storable)
    (h : ex.Executed w guarded now result) :
    ∃ rationale, contributors? rationale = some (votesOf signal) ∧
      shownDict py jsonb (buildAuditEnvelope signal guarded result) =
        .ok { ts := result.ts.toDateTime, symbol := result.intendedSymbol,
              mode := result.mode.value, executed := result.executed,
              intendedAction := result.intendedAction.value,
              intendedQuantity := result.intendedQuantity, orderId := result.orderId,
              blockedBy := guarded.blockedBy, reason := result.reason,
              signalAction := signal.action.value, signalConfidence := .ofRat signal.confidence,
              signalScore := .ofRat signal.score, signalRationale := rationale } := by
  obtain ⟨rationale, hvotes, hparse⟩ := parseRationale_kept hjsonb hstored
  refine ⟨rationale, hvotes, ?_⟩
  rw [shownDict, storedRow_decision hdumps hloads h hsize, decisionRow,
    reread_buildAuditEnvelope hstored, ok_bind, rowToDict]
  change (parseRationale _ (jsonb (buildAuditEnvelope signal guarded
    result).rationaleJson.dumpsText) >>= _) = _
  rw [hparse]
  rfl

/-! ### What is lost -/

section
variable {W : Type*}

/-- The dictionary carries the decision: the signal with its contributors; of a blocked signal
the guard and the reason that the guard gave; of any other the order id and the reason of the
execution. -/
structure CarriesDecision (guards : List (OrderGuardrail W)) (w : W) (signal : TradeSignal)
    (context : GuardContext) (result : ExecutionResult) (dict : AuditDict) : Prop where
  action : dict.signalAction = signal.action.value
  score : dict.signalScore = .ofRat signal.score
  confidence : dict.signalConfidence = .ofRat signal.confidence
  contributors : contributors? dict.signalRationale = some (votesOf signal)
  blocked : signal.action ≠ .hold → ∀ guard reason,
    GuardrailPipeline.FirstBlock w signal context guards guard reason →
      dict.blockedBy = some guard.guardId ∧ dict.reason = some reason
  passed : (signal.action = .hold ∨
      ∀ guard ∈ guards, GuardrailPipeline.Allows w signal context guard) →
    dict.blockedBy = none ∧ dict.orderId = result.orderId ∧ dict.reason = result.reason

/-- A guard that is the first to block the signal gives no reason but its own id. -/
def ReasonIsId (guards : List (OrderGuardrail W)) (w : W) (signal : TradeSignal)
    (context : GuardContext) : Prop :=
  signal.action ≠ .hold → ∀ guard reason,
    GuardrailPipeline.FirstBlock w signal context guards guard reason → reason = guard.guardId

/-- The executor reports a blocked signal under the id of the guard. -/
theorem executed_block_reason {ex : OrderExecutor W} {w : W} {signal : TradeSignal}
    {guardId reason : Text} {now : UtcTime} {result : ExecutionResult}
    (h : ex.Executed w (GuardrailPipeline.block signal guardId reason) now result) :
    result.reason = some guardId := by
  cases h with
  | held _ => rfl
  | unsized hne => exact absurd rfl hne
  | shadowed hne _ _ => exact absurd rfl hne
  | ordered hne _ _ _ => exact absurd rfl hne

/-- The dictionary that is shown carries the decision exactly where no guard had more to say
than its id. -/
theorem shownDict_carries_iff {p : GuardrailPipeline W} {ex : OrderExecutor W} {w : W}
    {py : Worker.Interpreter} {jsonb : Text → RawRationale} {signal : TradeSignal}
    {context : GuardContext} {guarded : GuardedSignal} {now : UtcTime} {result : ExecutionResult}
    {made : Option (OrderCall × Except Exn OrderResult)} (hdumps : 4 ≤ py.dumpsLimit)
    (hloads : 4 ≤ py.loadsLimit) (hjsonb : KeepsObjects py.loadsLimit jsonb)
    (hsize : ∀ q, ex.sizer.quantity w guarded.effectiveSignal = .ok q → q < 2 ^ 31)
    (hguarded : p.evaluate w signal context = .ok guarded)
    (hresult : ex.execute w guarded now = .ok (result, made))
    (hstored : (buildAuditEnvelope signal guarded result).Storable) :
    ∃ dict, shownDict py jsonb (buildAuditEnvelope signal guarded result) = .ok dict ∧
      (CarriesDecision p.guards w signal context result dict ↔
        ReasonIsId p.guards w signal context) := by
  have hexecuted := OrderExecutor.execute_executed hresult
  obtain ⟨rationale, hvotes, hdict⟩ := shownDict_eq hdumps hloads hjsonb hsize hstored hexecuted
  have hblock {guard : OrderGuardrail W} {reason : Text} (hold : signal.action ≠ .hold)
      (h : GuardrailPipeline.FirstBlock w signal context p.guards guard reason) :
      guarded.blockedBy = some guard.guardId ∧ result.reason = some guard.guardId := by
    have heval := GuardrailPipeline.evaluate_of_firstBlock hold h
    obtain rfl := Except.ok.inj (hguarded.symm.trans heval)
    exact ⟨rfl, executed_block_reason hexecuted⟩
  refine ⟨_, hdict, ?_, ?_⟩
  · intro hcarries hold guard reason h
    have hreason : result.reason = some reason := (hcarries.blocked hold guard reason h).2
    rw [(hblock hold h).2] at hreason
    exact (Option.some.inj hreason).symm
  · intro hids
    refine ⟨rfl, rfl, rfl, hvotes, ?_, ?_⟩
    · intro hold guard reason h
      rw [hids hold guard reason h]
      exact hblock hold h
    · intro h
      have heval := GuardrailPipeline.evaluate_of_allows h
      obtain rfl := Except.ok.inj (hguarded.symm.trans heval)
      exact ⟨rfl, rfl, rfl⟩

end

/-! ### An instance of the column -/

/-- Shorter keys come first, keys of one length in the order of their characters. -/
def keyLe (a b : Text × Json) : Bool :=
  a.1.length < b.1.length || (a.1.length = b.1.length && a.1 ≤ b.1)

def sortKeys : Json → Json
  | .obj pairs => .obj (pairs.mergeSort keyLe)
  | v => v

/-- A column that parses the text, sorts the keys and prints the value. -/
def sampleJsonb (s : Text) : RawRationale :=
  match Json.loads 1000 s with
  | .ok (.arr items) => .str (Json.arr (items.map sortKeys)).dumpsText
  | _ => .other

theorem flatObject_of_perm {pairs pairs' : List (Text × Json)} (h : pairs.Perm pairs')
    (hflat : FlatObject pairs) : FlatObject pairs' :=
  ⟨(h.map Prod.fst).nodup_iff.mp hflat.1, fun p hp => hflat.2 p (h.mem_iff.mpr hp)⟩

theorem loads_flatObjects {items : List (List (Text × Json))}
    (h : ∀ pairs ∈ items, FlatObject pairs) :
    Json.loads 1000 (Json.arr (items.map .obj)).dumpsText = .ok (.arr (items.map .obj)) := by
  have hvalue {v : Json} (hv : FlatValue v) : v.Loadable ∧ v.depth ≤ 0 := by
    cases v with
    | str s => exact ⟨hv.1, le_rfl⟩
    | float x =>
        obtain ⟨q, rfl, hq, -⟩ := hv
        refine ⟨?_, le_rfl⟩
        intro r hr
        cases hr
        exact hq
    | _ => exact absurd hv id
  have hobject : ∀ v ∈ items.map Json.obj, v.Loadable ∧ v.depth ≤ 1 := by
    intro v hv
    obtain ⟨pairs, hpairs, rfl⟩ := List.mem_map.mp hv
    obtain ⟨hkeys, hflat⟩ := h pairs hpairs
    refine ⟨Json.loadable_obj hkeys fun p hp => ⟨(hflat p hp).1.1, (hvalue (hflat p hp).2).1⟩, ?_⟩
    apply Json.depth_obj_le
    intro w hw
    obtain ⟨p, hp, rfl⟩ := List.mem_map.mp hw
    exact (hvalue (hflat p hp).2).2
  have hdepth := Json.depth_arr_le fun v hv => (hobject v hv).2
  exact Json.loads_dumpsText (Json.loadable_arr fun v hv => (hobject v hv).1) (by omega)

theorem sampleJsonb_keeps : KeepsObjects 1000 sampleJsonb := by
  intro items h
  have hsorted : ∀ pairs ∈ items.map (·.mergeSort keyLe), FlatObject pairs := by
    intro pairs hpairs
    obtain ⟨source, hsource, rfl⟩ := List.mem_map.mp hpairs
    exact flatObject_of_perm (List.mergeSort_perm source keyLe).symm (h source hsource)
  refine ⟨items.map (·.mergeSort keyLe), ?_, .inl ⟨_, ?_, loads_flatObjects hsorted⟩⟩
  · rw [List.forall₂_map_right_iff]
    exact List.forall₂_same.mpr fun pairs _ => (List.mergeSort_perm pairs keyLe).symm
  · rw [sampleJsonb, loads_flatObjects h]
    dsimp only
    rw [List.map_map, List.map_map]
    rfl

/-! ### Two decisions under the wired guards -/

/-- Live orders of one share with a broker that accepts them. -/
def liveExecutor : OrderExecutor Unit := (steadyPipeline .buy).executor

theorem liveExecutor_size (signal : TradeSignal) (q : Int)
    (h : liveExecutor.sizer.quantity () signal = .ok q) : q < 2 ^ 31 := by
  cases h
  decide

/-- The position is full. -/
def fullContext : GuardContext where
  positions := Finmap.singleton (text "005930") 1000
  now := GuardrailPipeline.buySignal.ts

def fullReason : Text :=
  text "already holding " ++ intText 1000 ++ text " shares of " ++ text "005930" ++
    text ", max is " ++ intText 1000

/-- What the executor makes of a buy that is blocked there. -/
def fullResult : ExecutionResult where
  mode := .noop
  executed := false
  intendedAction := .hold
  intendedSymbol := text "005930"
  reason := some (text "max_position_size")
  ts := GuardrailPipeline.buySignal.ts

theorem fullContext_firstBlock :
    GuardrailPipeline.FirstBlock () GuardrailPipeline.buySignal fullContext mainGuards.guards
      mainMaxPosition.toGuard fullReason := by
  refine ⟨[], _, rfl, nofun, ⟨false, fullReason⟩, ?_, rfl, rfl⟩
  have hheld : fullContext.positions.lookup GuardrailPipeline.buySignal.symbol = some 1000 :=
    Finmap.lookup_singleton_eq
  change mainMaxPosition.check GuardrailPipeline.buySignal fullContext = _
  rw [MaxPositionSizeGuard.check, hheld]
  rfl

/-- The reason of a guard is gone once its id has taken the place. -/
theorem fullContext_reason_lost : ∃ guarded result made dict,
    mainGuards.evaluate () GuardrailPipeline.buySignal fullContext = .ok guarded ∧
      liveExecutor.execute () guarded GuardrailPipeline.buySignal.ts = .ok (result, made) ∧
      shownDict Worker.samplePython sampleJsonb
          (buildAuditEnvelope GuardrailPipeline.buySignal guarded result) = .ok dict ∧
      guarded.reason = some fullReason ∧ dict.reason = some (text "max_position_size") ∧
      ¬ CarriesDecision mainGuards.guards () GuardrailPipeline.buySignal fullContext result
        dict := by
  have hfirst := fullContext_firstBlock
  have hguarded := GuardrailPipeline.evaluate_of_firstBlock (by decide) hfirst
  have hresult : liveExecutor.execute () (GuardrailPipeline.block GuardrailPipeline.buySignal
      (text "max_position_size") fullReason) GuardrailPipeline.buySignal.ts =
        .ok (fullResult, none) := rfl
  have hid : ∀ s ∈ some (text "max_position_size"), Storable s := by
    intro s hs
    cases hs
    exact ⟨by decide, by decide⟩
  have hstored : (buildAuditEnvelope GuardrailPipeline.buySignal (GuardrailPipeline.block
      GuardrailPipeline.buySignal (text "max_position_size") fullReason) fullResult).Storable :=
    ⟨⟨by decide, by decide⟩, fun _ h => (nomatch h), hid, hid, fun _ h => (nomatch h)⟩
  obtain ⟨rationale, -, hdict⟩ := shownDict_eq (show 4 ≤ Worker.samplePython.dumpsLimit by decide)
    (by decide) sampleJsonb_keeps (liveExecutor_size _) hstored
    (OrderExecutor.execute_executed hresult)
  refine ⟨_, _, _, _, hguarded, hresult, hdict, rfl, rfl, fun hcarries => ?_⟩
  have hlost : some (text "max_position_size") = some fullReason :=
    (hcarries.blocked (by decide) _ _ hfirst).2
  cases congrArg List.head? (Option.some.inj hlost)

/-- A buy with nothing held passes, and what is shown of it is complete. -/
theorem morningContext_carries : ∃ guarded result made dict,
    mainGuards.evaluate () GuardrailPipeline.buySignal GuardrailPipeline.morningContext =
        .ok guarded ∧
      liveExecutor.execute () guarded GuardrailPipeline.buySignal.ts = .ok (result, made) ∧
      shownDict Worker.samplePython sampleJsonb
          (buildAuditEnvelope GuardrailPipeline.buySignal guarded result) = .ok dict ∧
      (CarriesDecision mainGuards.guards () GuardrailPipeline.buySignal
          GuardrailPipeline.morningContext result dict ↔
        ReasonIsId mainGuards.guards () GuardrailPipeline.buySignal
          GuardrailPipeline.morningContext) := by
  have hguarded : mainGuards.evaluate () GuardrailPipeline.buySignal
      GuardrailPipeline.morningContext =
        .ok (GuardrailPipeline.allow GuardrailPipeline.buySignal) := rfl
  have hresult : liveExecutor.execute () (GuardrailPipeline.allow GuardrailPipeline.buySignal)
      GuardrailPipeline.buySignal.ts =
        .ok (OrderExecutor.settle ⟨text "005930", .buy, 1⟩ GuardrailPipeline.buySignal.ts
          (.ok { success := true, orderId := some (text "1") }),
          some (⟨text "005930", .buy, 1⟩, .ok { success := true, orderId := some (text "1") })) :=
    rfl
  have hid : ∀ s ∈ some (text "1"), Storable s := by
    intro s hs
    cases hs
    exact ⟨by decide, by decide⟩
  have hstored : (buildAuditEnvelope GuardrailPipeline.buySignal
      (GuardrailPipeline.allow GuardrailPipeline.buySignal)
      (OrderExecutor.settle ⟨text "005930", .buy, 1⟩ GuardrailPipeline.buySignal.ts
        (.ok { success := true, orderId := some (text "1") }))).Storable :=
    ⟨⟨by decide, by decide⟩, hid, fun _ h => (nomatch h), fun _ h => (nomatch h),
      fun _ h => (nomatch h)⟩
  obtain ⟨dict, hdict, hiff⟩ := shownDict_carries_iff
    (show 4 ≤ Worker.samplePython.dumpsLimit by decide) (by decide) sampleJsonb_keeps
    (liveExecutor_size _) hguarded hresult hstored
  exact ⟨_, _, _, dict, hguarded, hresult, hdict, hiff⟩

end NexusBackend
