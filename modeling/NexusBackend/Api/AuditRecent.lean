import NexusBackend.Persistence.AuditView

/-!
The rows of `GET /v1/audit/recent`: `fetch_recent` makes a dictionary of every row that the
query returned, and the route validates every dictionary. A row is read with the columns of the
insert and with `signal_rationale` as the driver hands it over.
-/
namespace NexusBackend

open Python

/-! ### What the response model accepts -/

def objectPairs : Json → Except Exn (List (Text × Json))
  | .obj pairs => .ok pairs
  | _ => raise .validationError

/-- What `list[dict[str, Any]]` makes of a decoded value. -/
def objectList : Json → Except Exn (List (List (Text × Json)))
  | .arr items => items.mapM objectPairs
  | _ => raise .validationError

structure AuditRowDTO where
  ts : DateTime
  symbol : Text
  mode : Text
  executed : Bool
  intendedAction : Text
  intendedQuantity : Int
  orderId : Option Text
  blockedBy : Option Text
  reason : Option Text
  signalAction : Text
  signalConfidence : Python.Float
  signalScore : Python.Float
  signalRationale : List (List (Text × Json))

/-- `AuditRowDTO.model_validate`. -/
def AuditRowDTO.modelValidate (d : AuditDict) : Except Exn AuditRowDTO := do
  let rationale ← objectList d.signalRationale
  return ⟨d.ts, d.symbol, d.mode, d.executed, d.intendedAction, d.intendedQuantity, d.orderId,
    d.blockedBy, d.reason, d.signalAction, d.signalConfidence, d.signalScore, rationale⟩

structure AuditRecentDTO where
  symbol : Text
  rows : List AuditRowDTO

/-- A row of the query: its columns, and the rationale as the driver hands it over. -/
abbrev FetchedRow := AuditRow × RawRationale

/-- `fetch_recent`: no rows where the database fails. -/
def fetchRecent (loadsLimit : Nat) (query : Text → Int → Except Exn (List FetchedRow))
    (symbol : Text) (limit : Int) : Except Exn (List AuditDict) := do
  if limit < 1 then
    return []
  let rows ← tryExcept (query symbol limit) Worker.databaseErrors fun _ => .ok []
  rows.mapM fun r => rowToDict loadsLimit r.1 r.2

/-- `audit_recent`, once the request itself is validated. -/
def auditRecent (loadsLimit : Nat) (query : Text → Int → Except Exn (List FetchedRow))
    (symbol : Text) (limit : Int) : Except Exn AuditRecentDTO := do
  let rows ← fetchRecent loadsLimit query symbol limit
  let dtos ← rows.mapM AuditRowDTO.modelValidate
  return ⟨symbol, dtos⟩

/-! ### The rationales that can be shown -/

/-- The value is a list of objects. -/
def IsObjectList (v : Json) : Prop :=
  ∃ objects : List (List (Text × Json)), v = .arr (objects.map .obj)

/-- A text that decodes is a list of objects, and it does not nest too deep for the decoder; a
list holds nothing but objects. -/
def RawRationale.Fits (loadsLimit : Nat) : RawRationale → Prop
  | .str s => (∀ e, Json.loads loadsLimit s = .error e → e.kind ≠ .recursionError) ∧
      ∀ v, Json.loads loadsLimit s = .ok v → IsObjectList v
  | .list items => IsObjectList (.arr items)
  | .other => True

theorem objectPairs_eq_ok_iff {v : Json} {pairs : List (Text × Json)} :
    objectPairs v = .ok pairs ↔ v = .obj pairs := by
  cases v with
  | obj ps => simp only [objectPairs, Except.ok.injEq, Json.obj.injEq]
  | _ => exact ⟨fun h => (nomatch h), fun h => (nomatch h)⟩

theorem objectList_eq_ok_iff {v : Json} {objects : List (List (Text × Json))} :
    objectList v = .ok objects ↔ v = .arr (objects.map .obj) := by
  cases v with
  | arr items =>
      simp only [objectList, mapM_eq_ok_iff, objectPairs_eq_ok_iff, Json.arr.injEq]
      rw [← List.forall₂_eq_eq_eq, List.forall₂_map_right_iff]
  | _ => exact ⟨fun h => (nomatch h), fun h => (nomatch h)⟩

theorem modelValidate_ok_iff {d : AuditDict} :
    (∃ dto, AuditRowDTO.modelValidate d = .ok dto) ↔ IsObjectList d.signalRationale := by
  simp only [AuditRowDTO.modelValidate, IsObjectList, ← objectList_eq_ok_iff, bind_eq_ok_iff]
  constructor
  · rintro ⟨-, objects, h, -⟩
    exact ⟨objects, h⟩
  · rintro ⟨objects, h⟩
    exact ⟨_, objects, h, rfl⟩

/-- Where the rationale fits, and only there, it is parsed to a list of objects. -/
theorem parseRationale_fits_iff (loadsLimit : Nat) (raw : RawRationale) :
    (∃ v, parseRationale loadsLimit raw = .ok v ∧ IsObjectList v) ↔ raw.Fits loadsLimit := by
  cases raw with
  | other => exact ⟨fun _ => trivial, fun _ => ⟨_, rfl, [], rfl⟩⟩
  | list items =>
      constructor
      · rintro ⟨v, hv, h⟩
        cases hv
        exact h
      · intro h
        exact ⟨_, rfl, h⟩
  | str s =>
      simp only [parseRationale, RawRationale.Fits]
      cases hs : Json.loads loadsLimit s with
      | ok w =>
          rw [tryExcept_ok]
          constructor
          · rintro ⟨v, hv, h⟩
            cases hv
            refine ⟨fun e he => ?_, fun v hv => Except.ok.inj hv ▸ h⟩
            cases he
          · rintro ⟨-, h⟩
            exact ⟨w, rfl, h w rfl⟩
      | error e =>
          obtain hcaught | hdeep := Json.loads_error hs
          · rw [tryExcept_caught _ (Exn.isInstance_of_subset hcaught (by decide))]
            refine ⟨fun _ => ⟨fun e' he' hkind => ?_, fun v hv => ?_⟩,
              fun _ => ⟨_, rfl, [], rfl⟩⟩
            · cases he'
              simp [Exn.isInstance, hkind, ExnKind.isA, ExnKind.base] at hcaught
            · cases hv
          · have huncaught : e.isInstance [.valueError, .typeError] = false := by
              simp [Exn.isInstance, hdeep, ExnKind.isA, ExnKind.base]
            rw [tryExcept_uncaught _ huncaught]
            constructor
            · rintro ⟨v, hv, -⟩
              cases hv
            · rintro ⟨h, -⟩
              exact absurd hdeep (h e rfl)

/-- The dictionary of a row carries its parsed rationale. -/
theorem rowToDict_fits_iff (loadsLimit : Nat) (row : AuditRow) (raw : RawRationale) :
    (∃ dict, rowToDict loadsLimit row raw = .ok dict ∧ IsObjectList dict.signalRationale) ↔
      raw.Fits loadsLimit := by
  rw [← parseRationale_fits_iff]
  simp only [rowToDict, bind_eq_ok_iff]
  constructor
  · rintro ⟨dict, ⟨v, hv, hdict⟩, h⟩
    cases hdict
    exact ⟨v, hv, h⟩
  · rintro ⟨v, hv, h⟩
    exact ⟨_, ⟨v, hv, rfl⟩, h⟩

/-! ### The response -/

/-- What the operator is shown of a row. -/
def shownRow (loadsLimit : Nat) (r : FetchedRow) : Except Exn AuditRowDTO :=
  rowToDict loadsLimit r.1 r.2 >>= AuditRowDTO.modelValidate

theorem shownRow_ok_iff (loadsLimit : Nat) (r : FetchedRow) :
    (∃ dto, shownRow loadsLimit r = .ok dto) ↔ r.2.Fits loadsLimit := by
  rw [← rowToDict_fits_iff loadsLimit r.1]
  simp only [shownRow, bind_eq_ok_iff, ← modelValidate_ok_iff]
  constructor
  · rintro ⟨dto, dict, h, hdto⟩
    exact ⟨dict, h, dto, hdto⟩
  · rintro ⟨dict, h, dto, hdto⟩
    exact ⟨dto, dict, h, hdto⟩

section
variable {loadsLimit : Nat} {query : Text → Int → Except Exn (List FetchedRow)} {symbol : Text}
  {limit : Int} {rows : List FetchedRow}

/-- The response shows every row, in the order of the query, or there is none. -/
theorem auditRecent_eq_ok_iff (hlimit : 1 ≤ limit) (hrows : query symbol limit = .ok rows)
    {response : AuditRecentDTO} :
    auditRecent loadsLimit query symbol limit = .ok response ↔
      response.symbol = symbol ∧ rows.mapM (shownRow loadsLimit) = .ok response.rows := by
  have hfetch : fetchRecent loadsLimit query symbol limit =
      rows.mapM fun r => rowToDict loadsLimit r.1 r.2 := by
    have hpos : ¬ limit < 1 := by omega
    simp only [fetchRecent, hpos, if_false, hrows, tryExcept_ok, ok_bind]
  have hshown (dtos : List AuditRowDTO) :
      ((rows.mapM fun r => rowToDict loadsLimit r.1 r.2) >>= fun dicts =>
        dicts.mapM AuditRowDTO.modelValidate) = .ok dtos ↔
          rows.mapM (shownRow loadsLimit) = .ok dtos := mapM_bind_mapM_eq_ok_iff
  rw [auditRecent, hfetch]
  simp only [bind_eq_ok_iff] at hshown ⊢
  constructor
  · rintro ⟨dicts, hdicts, dtos, hdtos, hresponse⟩
    cases hresponse
    exact ⟨rfl, (hshown dtos).mp ⟨dicts, hdicts, hdtos⟩⟩
  · rintro ⟨rfl, h⟩
    obtain ⟨dicts, hdicts, hdtos⟩ := (hshown _).mpr h
    exact ⟨dicts, hdicts, _, hdtos, rfl⟩

/-- The response is there exactly where every rationale fits. -/
theorem auditRecent_ok_iff (hlimit : 1 ≤ limit) (hrows : query symbol limit = .ok rows) :
    (∃ response, auditRecent loadsLimit query symbol limit = .ok response) ↔
      ∀ r ∈ rows, r.2.Fits loadsLimit := by
  simp only [auditRecent_eq_ok_iff hlimit hrows]
  constructor
  · rintro ⟨response, -, h⟩ r hr
    obtain ⟨dto, -, hdto⟩ := of_mapM h hr
    exact (shownRow_ok_iff loadsLimit r).mp ⟨dto, hdto⟩
  · intro h
    obtain ⟨dtos, hdtos⟩ := mapM_ok fun r hr => (shownRow_ok_iff loadsLimit r).mpr (h r hr)
    exact ⟨⟨symbol, dtos⟩, rfl, hdtos⟩

/-- The dictionary of a row is one that the response model accepts exactly where the rationale
fits, and one row whose rationale does not fit takes the whole response with it. -/
theorem auditRecent_tolerant_iff (hlimit : 1 ≤ limit) (hrows : query symbol limit = .ok rows) :
    (∀ row raw, (∃ dict, rowToDict loadsLimit row raw = .ok dict ∧
        ∃ dto, AuditRowDTO.modelValidate dict = .ok dto) ↔ raw.Fits loadsLimit) ∧
      ((∃ response, auditRecent loadsLimit query symbol limit = .ok response ∧
          rows.mapM (shownRow loadsLimit) = .ok response.rows) ↔
        ∀ r ∈ rows, r.2.Fits loadsLimit) := by
  constructor
  · simpa only [modelValidate_ok_iff] using rowToDict_fits_iff loadsLimit
  rw [← auditRecent_ok_iff hlimit hrows]
  constructor
  · rintro ⟨response, h, -⟩
    exact ⟨response, h⟩
  · rintro ⟨response, h⟩
    exact ⟨response, h, ((auditRecent_eq_ok_iff hlimit hrows).mp h).2⟩

end

/-! ### A corrupt row among good ones -/

/-- A row of the table, without its rationale. -/
def heldRow : AuditRow where
  ts := GuardrailPipeline.buySignal.ts.toDateTime
  symbol := text "005930"
  mode := text "noop"
  executed := false
  intendedAction := text "hold"
  intendedQuantity := 0
  orderId := none
  blockedBy := none
  reason := none
  signalAction := text "hold"
  signalConfidence := .finite 0
  signalScore := .finite 0
  signalRationale := []

/-- A row without contributors, and one whose rationale is no JSON at all. -/
def malformedRows : List FetchedRow :=
  [(heldRow, .str (text "[]")), (heldRow, .str (text "not json \x7b"))]

/-- A row without contributors, and one whose rationale is the JSON value `null`. -/
def corruptRows : List FetchedRow :=
  [(heldRow, .str (text "[]")), (heldRow, .str (text "null"))]

theorem auditRecent_malformed_rationale :
    ∃ response, auditRecent 1000 (fun _ _ => .ok malformedRows) (text "005930") 20 =
        .ok response ∧ malformedRows.mapM (shownRow 1000) = .ok response.rows := by
  refine (auditRecent_tolerant_iff (by decide) rfl).2.mpr ?_
  intro r hr
  have hempty : (RawRationale.str (text "[]")).Fits 1000 := by
    rw [← parseRationale_fits_iff]
    exact ⟨_, rfl, [], rfl⟩
  have hmalformed : (RawRationale.str (text "not json \x7b")).Fits 1000 := by
    rw [← parseRationale_fits_iff]
    exact ⟨_, rfl, [], rfl⟩
  rcases List.mem_cons.mp hr with rfl | hr
  · exact hempty
  · rcases List.mem_cons.mp hr with rfl | hr
    · exact hmalformed
    · cases hr

theorem auditRecent_null_rationale :
    (∃ dict, rowToDict 1000 heldRow (.str (text "null")) = .ok dict ∧
      AuditRowDTO.modelValidate dict = raise .validationError) ∧
      auditRecent 1000 (fun _ _ => .ok corruptRows) (text "005930") 20 =
        raise .validationError :=
  ⟨⟨_, rfl, rfl⟩, rfl⟩

end NexusBackend
