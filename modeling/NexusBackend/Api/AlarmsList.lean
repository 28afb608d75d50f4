import NexusBackend.Api.AlarmsQuery
import NexusBackend.Api.SecuritiesList
import NexusBackend.Persistence.SecuritiesLookup

/-!
`GET /alarms`: the page of the alarm store, with the names of the securities that its alarms are
about. A store that fails is answered for with an empty page, unless what it stores is malformed.
-/
namespace NexusBackend

open Python

/-- `AlarmRepository`, as the route calls it. -/
structure AlarmStore where
  list : AlarmListFilters → Except Exn (List Alarm × Nat)
  countActive : Except Exn Nat

/-- `AlarmDTO`. -/
structure AlarmDto where
  alarm : Alarm
  entityDisplay : Option Text

/-- `AlarmListDTO`. -/
structure AlarmListDto where
  items : List AlarmDto
  total : Nat
  unacknowledgedCount : Nat
  windowSince : Option DateTime
  serverTime : UtcTime

/-- What the route has of the two reads. -/
structure AlarmRead where
  items : List Alarm
  total : Nat
  unacked : Nat

namespace AlarmStore

variable (store : AlarmStore) (filters : AlarmListFilters)

/-- The two reads. -/
def reads : Except Exn AlarmRead := do
  let page ← store.list filters
  let unacked ← store.countActive
  return ⟨page.1, page.2, unacked⟩

/-- The block around them: `except ValueError: raise`, then `except Exception`. -/
def read : Except Exn AlarmRead :=
  match store.reads filters with
  | .ok r => .ok r
  | .error e => if e.isInstance [.valueError] then .error e else .ok ⟨[], 0, 0⟩

end AlarmStore

/-- `sorted({a.entity_id for a in items if a.entity_id})`. -/
def tickerIds (items : List Alarm) : List Text :=
  Ranking.ascending id ((items.filterMap (·.entityId)).filter (· ≠ [])).dedup

/-- `entity_display` of an alarm. -/
def entityDisplay (secMap : List (Text × SecurityModel)) (alarm : Alarm) : Option Text :=
  match alarm.entityId with
  | none => none
  | some entity =>
      if entity = [] then none else (Json.get? secMap entity).map SecurityModel.displayName

section
variable {κ : Type} (db : SearchDatabase κ) (table : SecurityTable)
  (order : OrderBy fun _ : SecurityRow => ()) (store : AlarmStore)

/-- `sec_map` of the route. -/
def alarmSecurities (items : List Alarm) : Except Exn (List (Text × SecurityModel)) :=
  if tickerIds items = [] then .ok [] else db.getByTickerBatch table order (tickerIds items)

/-- `alarms_list`. -/
def alarmsList (serverTime : UtcTime) (q : AlarmsQuery) :
    Except Exn (ProblemDetail ⊕ AlarmListDto) := do
  match ← alarmsFilters db.printable serverTime q with
  | .inl problem => return .inl problem
  | .inr filters =>
      let found ← store.read filters
      let secMap ← alarmSecurities db table order found.items
      return .inr {
        items := found.items.map fun a => ⟨a, entityDisplay secMap a⟩
        total := found.total
        unacknowledgedCount := found.unacked
        windowSince := filters.since
        serverTime := serverTime }

/-! ### The names -/

theorem mem_tickerIds {items : List Alarm} {ticker : Text} :
    ticker ∈ tickerIds items ↔ ticker ≠ [] ∧ ∃ a ∈ items, a.entityId = some ticker := by
  rw [tickerIds, (Ranking.ascending_perm _ _).mem_iff, List.mem_dedup, List.mem_filter,
    List.mem_filterMap, decide_eq_true_eq, and_comm]

theorem entity_ne_nil {a : Alarm} {entity : Text} (h : a.entityId = some entity) :
    entity ≠ [] := by
  intro hempty
  rw [hempty] at h
  exact ((AlarmFields.postInit_ok_iff _).mp a.checked).entity h

/-- The name of the security that an alarm is about. -/
def knownDisplay (a : Alarm) : Option Text :=
  (a.entityId.bind (db.known table)).map SecurityModel.displayName

/-- Each alarm has the name of its security, unless one of them is about what cannot be sent. -/
theorem alarmSecurities_eq (items : List Alarm) :
    ∃ secMap, alarmSecurities db table order items = .ok secMap ∧
      ∀ a ∈ items, entityDisplay secMap a =
        if ∀ b ∈ items, ∀ s ∈ b.entityId, Storable s then knownDisplay db table a else none := by
  obtain ⟨secMap, hsecMap, hget⟩ : ∃ secMap, alarmSecurities db table order items = .ok secMap ∧
      ∀ k, Json.get? secMap k = if (∀ s ∈ tickerIds items, Storable s) ∧ k ∈ tickerIds items then
        db.known table k else none := by
    rw [alarmSecurities]
    split
    · rename_i hempty
      refine ⟨[], rfl, ?_⟩
      intro k
      rw [hempty, if_neg fun h => List.not_mem_nil h.2]
      rfl
    · exact db.getByTickerBatch_eq table order _
  refine ⟨secMap, hsecMap, ?_⟩
  intro a ha
  have hstorable : (∀ s ∈ tickerIds items, Storable s) ↔
      ∀ b ∈ items, ∀ s ∈ b.entityId, Storable s := by
    constructor
    · intro h b hb s hs
      exact h s (mem_tickerIds.mpr ⟨entity_ne_nil hs, b, hb, hs⟩)
    · intro h s hs
      obtain ⟨-, b, hb, hentity⟩ := mem_tickerIds.mp hs
      exact h b hb s hentity
  rw [entityDisplay, knownDisplay]
  cases hentity : a.entityId with
  | none => exact (ite_self _).symm
  | some entity =>
      have hne := entity_ne_nil hentity
      have hmem : entity ∈ tickerIds items := mem_tickerIds.mpr ⟨hne, a, ha, hentity⟩
      dsimp only
      rw [if_neg hne, hget, Option.bind_some]
      by_cases hall : ∀ b ∈ items, ∀ s ∈ b.entityId, Storable s
      · rw [if_pos ⟨hstorable.mpr hall, hmem⟩, if_pos hall]
      · rw [if_neg fun h => hall (hstorable.mp h.1), if_neg hall]
        rfl

/-- What is answered of a page. -/
def alarmsAnswer (serverTime : UtcTime) (filters : AlarmListFilters) (found : AlarmRead) :
    AlarmListDto where
  items := found.items.map fun a => ⟨a,
    if ∀ b ∈ found.items, ∀ s ∈ b.entityId, Storable s then knownDisplay db table a else none⟩
  total := found.total
  unacknowledgedCount := found.unacked
  windowSince := filters.since
  serverTime := serverTime

theorem alarmsList_of_read {serverTime : UtcTime} {q : AlarmsQuery} {filters : AlarmListFilters}
    {found : AlarmRead} (hfilters : alarmsFilters db.printable serverTime q = .ok (.inr filters))
    (hread : store.read filters = .ok found) :
    alarmsList db table order store serverTime q =
      .ok (.inr (alarmsAnswer db table serverTime filters found)) := by
  obtain ⟨secMap, hsecMap, hdisplay⟩ := alarmSecurities_eq db table order found.items
  have hitems : found.items.map (fun a => AlarmDto.mk a (entityDisplay secMap a)) =
      (alarmsAnswer db table serverTime filters found).items := by
    refine List.map_congr_left ?_
    intro a ha
    rw [hdisplay a ha]
  rw [alarmsList, hfilters, ok_bind]
  dsimp only
  rw [hread, ok_bind, hsecMap, ok_bind, hitems]
  rfl

end
end NexusBackend
