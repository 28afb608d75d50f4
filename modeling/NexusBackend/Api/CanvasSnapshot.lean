import NexusBackend.Api.SecuritiesList
import NexusBackend.Persistence.Connection
import NexusBackend.Persistence.SecuritiesLookup

/-!
`GET /snapshot`: the entities and edges of the canvas, with what is known of the securities among
them. An edge has both its ends in the table of entities, but the answer has only the first five
hundred of those. The two readers of this route let the error of a lost connection pass.
-/
namespace NexusBackend

open Python

/-! ### Tables -/

/-- The columns of `entity`. -/
structure EntityRow where
  id : Text
  cluster : Text
  anomaly : Python.Float
  txVol : Python.Float
  storable : Storable id ∧ Storable cluster
  anomaly_check : Within anomaly 0 1

/-- The columns of `edge`. -/
structure EdgeRow where
  fromId : Text
  toId : Text
  weight : Python.Float
  updatedAt : Int

/-- `PRIMARY KEY (from_id, to_id)`. -/
def EdgeRow.key (row : EdgeRow) : Text × Text := (row.fromId, row.toId)

structure CanvasTables where
  entities : KeyedTable EntityRow.id
  edges : KeyedTable EdgeRow.key
  references : ∀ e ∈ edges.rows, e.fromId ∈ entities.rows.map EntityRow.id ∧
    e.toId ∈ entities.rows.map EntityRow.id

/-- `ORDER BY anomaly DESC`. -/
def EntityRow.mostAnomalous (row : EntityRow) : ℚᵒᵈ :=
  OrderDual.toDual (match row.anomaly with
    | .finite q => q
    | _ => 0)

/-- `ORDER BY updated_at DESC`. -/
def EdgeRow.latest (row : EdgeRow) : Intᵒᵈ := OrderDual.toDual row.updatedAt

/-- How the database orders what it selects. -/
structure CanvasDatabase extends Connection where
  byAnomaly : OrderBy EntityRow.mostAnomalous
  byUpdate : OrderBy EdgeRow.latest

namespace CanvasDatabase

variable (canvas : CanvasDatabase) (tables : CanvasTables)

/-- `list_entities`. -/
def listEntities (limit : Nat := 500) : Except Exn (List EntityRow) :=
  canvas.answer [] (.ok ((canvas.byAnomaly.arrange tables.entities.rows).take limit))

/-- `list_edges`. -/
def listEdges (limit : Nat := 2000) : Except Exn (List EdgeRow) :=
  canvas.answer [] (.ok ((canvas.byUpdate.arrange tables.edges.rows).take limit))

end CanvasDatabase

/-! ### The answer -/

/-- `EntityDTO`. -/
structure EntityDto where
  entity : EntityRow
  displayName : Option Text
  ticker : Option Text
  sector : Option Text

/-- `EdgeDTO`. -/
structure EdgeDto where
  fromId : Text
  toId : Text
  weight : Python.Float

structure SnapshotDto where
  entities : List EntityDto
  edges : List EdgeDto
  ts : UtcTime

def entityToDto (secMap : List (Text × SecurityModel)) (e : EntityRow) : EntityDto where
  entity := e
  displayName := (Json.get? secMap e.id).map SecurityModel.displayName
  ticker := (Json.get? secMap e.id).map SecurityModel.ticker
  sector := (Json.get? secMap e.id).map SecurityModel.sector

def EdgeRow.toDto (e : EdgeRow) : EdgeDto := ⟨e.fromId, e.toId, e.weight⟩

section
variable {κ : Type} (db : SearchDatabase κ) (securities : SecurityTable)
  (canvas : CanvasDatabase) (tables : CanvasTables)
  (order : OrderBy fun _ : SecurityRow => ())

/-- `latest_snapshot`. -/
def latestSnapshot (now : UtcTime) : Except Exn SnapshotDto := do
  let entities ← canvas.listEntities tables
  let edges ← canvas.listEdges tables
  let secMap ← db.getByTickerBatch securities order (entities.map EntityRow.id)
  return ⟨entities.map (entityToDto secMap), edges.map EdgeRow.toDto, now⟩

/-- What is known of an entity. -/
def knownEntity (e : EntityRow) : EntityDto where
  entity := e
  displayName := (db.known securities e.id).map SecurityModel.displayName
  ticker := (db.known securities e.id).map SecurityModel.ticker
  sector := (db.known securities e.id).map SecurityModel.sector

/-- With the database up, each entity is shown with what is known of it. -/
theorem latestSnapshot_eq (hlost : canvas.lost = none) (now : UtcTime) :
    latestSnapshot db securities canvas tables order now =
      .ok ⟨((canvas.byAnomaly.arrange tables.entities.rows).take 500).map
          (knownEntity db securities),
        ((canvas.byUpdate.arrange tables.edges.rows).take 2000).map EdgeRow.toDto, now⟩ := by
  have hup {α : Type} (rows : List α) : canvas.answer [] (.ok rows) = .ok rows := by
    rw [Connection.answer, hlost]
    exact if_pos fun _ hs => absurd hs List.not_mem_nil
  obtain ⟨secMap, hsecMap, hget⟩ := db.getByTickerBatch_eq securities order
    (((canvas.byAnomaly.arrange tables.entities.rows).take 500).map EntityRow.id)
  have hstorable : ∀ s ∈ ((canvas.byAnomaly.arrange tables.entities.rows).take 500).map
      EntityRow.id, Storable s := by
    intro s hs
    obtain ⟨e, -, rfl⟩ := List.mem_map.mp hs
    exact e.storable.1
  have hentities : ((canvas.byAnomaly.arrange tables.entities.rows).take 500).map
      (entityToDto secMap) = ((canvas.byAnomaly.arrange tables.entities.rows).take 500).map
        (knownEntity db securities) := by
    refine List.map_congr_left ?_
    intro e he
    rw [entityToDto, knownEntity, hget, if_pos ⟨hstorable, List.mem_map_of_mem he⟩]
  rw [latestSnapshot, CanvasDatabase.listEntities, CanvasDatabase.listEdges, hup, hup, ok_bind,
    ok_bind, hsecMap, ok_bind, hentities]
  rfl

/-- The snapshot shows the most anomalous entities, each once and with what is known of it, and
the latest edges. Where the table has no more than five hundred entities every edge shown has
both its ends among them. -/
theorem latestSnapshot_answers (now : UtcTime) :
    (∃ e, canvas.lost = some e ∧
        latestSnapshot db securities canvas tables order now = .error e.val) ∨
      ∃ entities edges, latestSnapshot db securities canvas tables order now =
          .ok ⟨entities.map (knownEntity db securities), edges.map EdgeRow.toDto, now⟩ ∧
        Ranking.IsFirst EntityRow.mostAnomalous 500 entities tables.entities.rows ∧
        (entities.map EntityRow.id).Nodup ∧
        Ranking.IsFirst EdgeRow.latest 2000 edges tables.edges.rows ∧
        (tables.entities.rows.length ≤ 500 → ∀ e ∈ edges,
          e.fromId ∈ entities.map EntityRow.id ∧ e.toId ∈ entities.map EntityRow.id) := by
  cases hlost : canvas.lost with
  | some e =>
      refine .inl ⟨e, rfl, ?_⟩
      rw [latestSnapshot, CanvasDatabase.listEntities, Connection.answer, hlost]
      rfl
  | none =>
      refine .inr ⟨_, _, latestSnapshot_eq db securities canvas tables order hlost now,
        canvas.byAnomaly.take_isFirst 500 _, ?_, canvas.byUpdate.take_isFirst 2000 _, ?_⟩
      · have hids := tables.entities.keys_nodup
        rw [← ((canvas.byAnomaly.perm tables.entities.rows).map EntityRow.id).nodup_iff] at hids
        exact hids.sublist ((List.take_sublist 500 _).map _)
      · intro hfew e he
        have hall := canvas.byAnomaly.length_arrange tables.entities.rows
        rw [List.take_of_length_le (hall.trans_le hfew)]
        have hids := (canvas.byAnomaly.perm tables.entities.rows).map EntityRow.id
        rw [hids.mem_iff, hids.mem_iff]
        exact tables.references e (canvas.byUpdate.mem_arrange.mp (List.mem_of_mem_take he))

end
end NexusBackend
