import NexusBackend.Api.SecuritiesList
import NexusBackend.Persistence.SecuritiesLookup

/-!
`GET /securities/relations` and `GET /securities/{ticker}`.

The smallest weight is what the validation of the framework lets through. The second route is
declared after the first, so no ticker is called `relations`.
-/
namespace NexusBackend

open Python

/-! ### Relations -/

/-- `_VALID_KINDS`, sorted. -/
def validKinds : List Text :=
  ["correlation", "cross_listing", "same_chaebol", "sector", "supply_chain"].map text

structure RelationsQuery where
  kind : Option Text := none
  minWeight : Python.Float := .finite 0
  tickers : Option Text := none
  min_weight_range : Within minWeight 0 1

/-- `_parse_relation_kinds`. -/
def parseRelationKinds (printable : Nat → Bool) (raw : Option Text) :
    Except Exn (Option (List Text)) :=
  parseTokens (fun token => token ∈ validKinds)
    (fun token => text "kind " ++ reprText printable token ++ text " is not one of " ++
      join 124 validKinds) raw 10

/-- `_relation_to_dto`: the response model has the fields and the bounds of the domain model. -/
structure SecurityRelationDto extends RelationModel

def relationToDto (rel : RelationModel) : SecurityRelationDto := ⟨rel⟩

/-- The guarded block of `securities_relations`. -/
def parseRelationFilters (printable : Nat → Bool) (q : RelationsQuery) :
    Except Exn (ProblemDetail ⊕ Option (List Text) × Option (List Text)) :=
  tryExcept
    (do
      let kinds ← parseRelationKinds printable q.kind
      return .inr (kinds, parseCsv q.tickers 50))
    [invalidInput] fun e => .ok (.inl (invalidInputResponse e))

section
variable {κ : Type} [LinearOrder κ] {collate : Text → κ} (order : OrderBy (edgeOrder collate))
  (printable : Nat → Bool) (table : RelationTable)

/-- `securities_relations`. -/
def securitiesRelations (q : RelationsQuery) :
    Except Exn (ProblemDetail ⊕ List SecurityRelationDto) := do
  match ← parseRelationFilters printable q with
  | .inl problem => return .inl problem
  | .inr (kinds, tickerTokens) =>
      let edges ← listRelations order printable table kinds q.minWeight tickerTokens
      return .inr (edges.map relationToDto)

/-- One of the kinds is unknown. -/
def RelationsQuery.Refused (q : RelationsQuery) : Prop :=
  HasBadToken (fun token => token ∈ validKinds) q.kind 10

end

/-! ### One security -/

def securityNotFound (printable : Nat → Bool) (ticker : Text) : ProblemDetail where
  type := text "urn:nexus:errors:security-not-found"
  title := text "Security not found"
  status := 404
  detail := text "ticker " ++ reprText printable ticker ++ text " not in universe"

section
variable {κ : Type} (db : SearchDatabase κ) (table : SecurityTable)

/-- `securities_detail`. -/
def securitiesDetail (ticker : Text) : Except Exn (ProblemDetail ⊕ SecurityDto) := do
  match ← db.getSecurity table ticker with
  | none => return .inl (securityNotFound db.printable ticker)
  | some sec => return .inr (securityToDto sec)

theorem securitiesDetail_eq (ticker : Text) :
    securitiesDetail db table ticker =
      .ok (match if ticker ≠ [] ∧ Storable ticker then db.known table ticker else none with
        | none => .inl (securityNotFound db.printable ticker)
        | some sec => .inr (securityToDto sec)) := by
  rw [securitiesDetail, db.getSecurity_eq, ok_bind]
  cases if ticker ≠ [] ∧ Storable ticker then db.known table ticker else none with
  | none => rfl
  | some sec => rfl

theorem known_eq_none_iff {ticker : Text} :
    db.known table ticker = none ↔ ticker ∉ table.rows.map SecurityRow.ticker := by
  rw [Option.eq_none_iff_forall_ne_some]
  constructor
  · intro h hmem
    obtain ⟨row, hrow, rfl⟩ := List.mem_map.mp hmem
    obtain ⟨sec, hsec⟩ := db.rowToSecurity_ok hrow
    exact h sec (db.known_of_mem hrow hsec)
  · intro h sec hsec
    obtain ⟨row, hrow, rfl, -⟩ := db.known_eq_some_iff.mp hsec
    exact h (List.mem_map_of_mem hrow)

theorem securitiesDetail_notFound_iff (ticker : Text) :
    securitiesDetail db table ticker = .ok (.inl (securityNotFound db.printable ticker)) ↔
      ticker = [] ∨ ticker ∉ table.rows.map SecurityRow.ticker := by
  rw [securitiesDetail_eq, Except.ok.injEq]
  by_cases hempty : ticker = []
  · rw [if_neg fun h => h.1 hempty]
    exact iff_of_true rfl (.inl hempty)
  rw [or_iff_right hempty, ← known_eq_none_iff db table]
  by_cases hstorable : Storable ticker
  · rw [if_pos ⟨hempty, hstorable⟩]
    cases db.known table ticker with
    | none => exact iff_of_true rfl rfl
    | some sec => exact iff_of_false (by simp) (by simp)
  · rw [if_neg fun h => hstorable h.2]
    refine iff_of_true rfl ?_
    rw [known_eq_none_iff]
    intro hmem
    obtain ⟨row, hrow, rfl⟩ := List.mem_map.mp hmem
    exact hstorable (table.storable row hrow row.ticker List.mem_cons_self)

end

end NexusBackend
