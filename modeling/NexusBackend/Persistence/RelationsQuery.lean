import NexusBackend.Library.FloatArithmetic
import NexusBackend.Library.OrderBy
import NexusBackend.Persistence.SecuritiesSearch
import Mathlib.Data.Prod.Lex

/-!
`security_relation` and its readers, `list_relations` and `count_relations`.

Edges with one weight and one pair of ends come in the order that the database likes. A weight is
compared as the database does it, which puts NaN above every other number.
-/
namespace NexusBackend

open Python

/-! ### Rows -/

inductive RelationKind
  | sector
  | correlation
  | sameChaebol
  | supplyChain
  | crossListing
deriving DecidableEq

def RelationKind.value : RelationKind → Text
  | sector => text "sector"
  | correlation => text "correlation"
  | sameChaebol => text "same_chaebol"
  | supplyChain => text "supply_chain"
  | crossListing => text "cross_listing"

def RelationKind.members : List RelationKind :=
  [.sector, .correlation, .sameChaebol, .supplyChain, .crossListing]

/-- The columns of `security_relation`. -/
structure RelationRow where
  fromTicker : Text
  toTicker : Text
  kind : Text
  weight : Python.Float
  directed : Bool
  evidence : Option Text
  updatedAt : UtcTime

namespace RelationRow

/-- `PRIMARY KEY (from_ticker, to_ticker, kind)`. -/
def key (row : RelationRow) : Text × Text × Text := (row.fromTicker, row.toTicker, row.kind)

def texts (row : RelationRow) : List Text :=
  [row.fromTicker, row.toTicker, row.kind] ++ row.evidence.toList

def weightValue (row : RelationRow) : ℚ :=
  match row.weight with
  | .finite q => q
  | _ => 0

end RelationRow

instance (x : Python.Float) (lo hi : ℚ) : Decidable (Within x lo hi) :=
  match x with
  | .finite q => decidable_of_iff (lo ≤ q ∧ q ≤ hi) (by simp [Within])
  | .inf _ => .isFalse (by simp [Within])
  | .nan => .isFalse (by simp [Within])

/-- What the columns of `security_relation` admit. -/
structure RelationRow.Admitted (row : RelationRow) : Prop where
  storable : ∀ s ∈ row.texts, Storable s
  kind_check : row.kind ∈ RelationKind.members.map RelationKind.value
  weight_check : Within row.weight 0 1

instance (row : RelationRow) : Decidable row.Admitted :=
  decidable_of_iff ((∀ s ∈ row.texts, Storable s) ∧
      row.kind ∈ RelationKind.members.map RelationKind.value ∧ Within row.weight 0 1)
    ⟨fun h => ⟨h.1, h.2.1, h.2.2⟩, fun h => ⟨h.1, h.2, h.3⟩⟩

structure RelationTable extends KeyedTable RelationRow.key where
  admitted : ∀ row ∈ rows, row.Admitted

/-- The domain model of an edge. -/
structure RelationModel where
  fromTicker : Text
  toTicker : Text
  kind : RelationKind
  weight : Python.Float
  directed : Bool
  evidence : Option Text
  weight_range : Within weight 0 1

/-- `_row_to_relation`. -/
def rowToRelation (printable : Nat → Bool) (row : RelationRow) : Except Exn RelationModel :=
  match RelationKind.members.find? fun k => k.value = row.kind with
  | none =>
      raise .valueError (text "unknown relation kind " ++ reprText printable row.kind ++
        text " for " ++ row.fromTicker ++ text "->" ++ row.toTicker)
  | some kind =>
      if h : Within row.weight 0 1 then
        .ok ⟨row.fromTicker, row.toTicker, kind, row.weight, row.directed, row.evidence, h⟩
      else raise .validationError

/-! ### Statements -/

inductive EdgeType
  | double
  | textArray
deriving DecidableEq

inductive EdgeParam
  | double (x : Python.Float)
  | texts (ss : List Text)

namespace EdgeParam

def type : EdgeParam → EdgeType
  | double _ => .double
  | texts _ => .textArray

def Storable : EdgeParam → Prop
  | double _ => True
  | texts ss => ∀ s ∈ ss, NexusBackend.Storable s

instance (p : EdgeParam) : Decidable p.Storable := by
  cases p with
  | double x => exact inferInstanceAs (Decidable True)
  | texts ss => exact inferInstanceAs (Decidable (∀ s ∈ ss, NexusBackend.Storable s))

/-- The argument that `$i` stands for. -/
def argument (params : List EdgeParam) : Nat → Option EdgeParam
  | 0 => none
  | i + 1 => params[i]?

def doubleArgument (params : List EdgeParam) (i : Nat) : Python.Float :=
  match argument params i with
  | some (.double x) => x
  | _ => .nan

def textsArgument (params : List EdgeParam) (i : Nat) : List Text :=
  match argument params i with
  | some (.texts ss) => ss
  | _ => []

end EdgeParam

/-- `x <= y` of the database. -/
def sqlLe (x y : Python.Float) : Bool := y = .nan || x.le y

/-- The conditions, with the numbers of their parameters. -/
inductive EdgeClause
  | weightGe (i : Nat)
  | kindAny (i : Nat)
  | endAny (i j : Nat)

namespace EdgeClause

def references : EdgeClause → List (EdgeType × Nat)
  | weightGe i => [(.double, i)]
  | kindAny i => [(.textArray, i)]
  | endAny i j => [(.textArray, i), (.textArray, j)]

def holds (params : List EdgeParam) (row : RelationRow) : EdgeClause → Bool
  | weightGe i => sqlLe (EdgeParam.doubleArgument params i) row.weight
  | kindAny i => row.kind ∈ EdgeParam.textsArgument params i
  | endAny i j =>
      decide (row.fromTicker ∈ EdgeParam.textsArgument params i) ||
        decide (row.toTicker ∈ EdgeParam.textsArgument params j)

end EdgeClause

/-- `clauses` and `params` as a builder fills them. -/
structure EdgeWhere where
  clauses : List EdgeClause
  params : List EdgeParam

namespace EdgeWhere

/-- `params.append(p)`. -/
def append (w : EdgeWhere) (p : EdgeParam) : EdgeWhere := { w with params := w.params ++ [p] }

/-- `clauses.append(c)`. -/
def clause (w : EdgeWhere) (c : EdgeClause) : EdgeWhere := { w with clauses := w.clauses ++ [c] }

/-- The numbered arguments are those that the statement names, of the types it takes. -/
def Binds (w : EdgeWhere) : Prop :=
  (∀ c ∈ w.clauses, ∀ r ∈ c.references, r ∈ (w.params.map EdgeParam.type).zipIdx 1) ∧
    ∀ r ∈ (w.params.map EdgeParam.type).zipIdx 1, ∃ c ∈ w.clauses, r ∈ c.references

instance (w : EdgeWhere) : Decidable w.Binds := inferInstanceAs (Decidable (_ ∧ _))

/-- The rows of `FROM security_relation WHERE ...`. -/
def select (w : EdgeWhere) (table : RelationTable) : Except Exn (List RelationRow) :=
  if ¬ w.Binds then raise interfaceError
  else if ∃ p ∈ w.params, ¬ p.Storable then raise postgresError
  else .ok (table.rows.filter fun row => w.clauses.all fun c => c.holds w.params row)

end EdgeWhere

/-! ### The two readers -/

/-- The `WHERE` of `list_relations`. -/
def relationsWhere (kinds : Option (List Text)) (minWeight : Python.Float)
    (tickers : Option (List Text)) : EdgeWhere :=
  let w : EdgeWhere := { clauses := [.weightGe 1], params := [.double minWeight] }
  let w := (given kinds).elim w fun kinds =>
    let w := w.append (.texts kinds)
    w.clause (.kindAny w.params.length)
  (given tickers).elim w fun tickers =>
    let w := w.append (.texts tickers)
    w.clause (.endAny w.params.length w.params.length)

/-- The `WHERE` of `count_relations`. -/
def relationsCountWhere (kinds : Option (List Text)) (minWeight : Python.Float)
    (tickers : Option (List Text)) : EdgeWhere :=
  let w : EdgeWhere := { clauses := [.weightGe 1], params := [.double minWeight] }
  let w := (given kinds).elim w fun kinds =>
    let w := w.append (.texts kinds)
    w.clause (.kindAny w.params.length)
  (given tickers).elim w fun tickers =>
    let w := w.append (.texts tickers)
    w.clause (.endAny w.params.length w.params.length)

/-- `weight DESC, from_ticker ASC, to_ticker ASC`. -/
def edgeOrder {κ : Type} (collate : Text → κ) (row : RelationRow) : ℚᵒᵈ ×ₗ κ ×ₗ κ :=
  toLex (OrderDual.toDual row.weightValue, toLex (collate row.fromTicker, collate row.toTicker))

section
variable {κ : Type} [LinearOrder κ] {collate : Text → κ} (order : OrderBy (edgeOrder collate))
  (printable : Nat → Bool) (table : RelationTable)

/-- `list_relations`. -/
def listRelations (kinds : Option (List Text)) (minWeight : Python.Float)
    (tickers : Option (List Text)) : Except Exn (List RelationModel) := do
  let rows ← tryExcept
    ((fun rows => some (order.arrange rows)) <$> (relationsWhere kinds minWeight tickers).select
      table)
    Worker.databaseErrors fun _ => .ok none
  match rows with
  | none => return []
  | some rows => rows.mapM (rowToRelation printable)

/-- `count_relations`. -/
def countRelations (kinds : Option (List Text)) (minWeight : Python.Float)
    (tickers : Option (List Text)) : Except Exn Nat :=
  tryExcept (List.length <$> (relationsCountWhere kinds minWeight tickers).select table)
    Worker.databaseErrors fun _ => .ok 0

end

/-! ### What they select -/

/-- The edge is heavy enough, of one of the kinds, and has one of the tickers at an end. -/
def RelationRow.Selected (kinds : Option (List Text)) (minWeight : Python.Float)
    (tickers : Option (List Text)) (row : RelationRow) : Prop :=
  sqlLe minWeight row.weight = true ∧ (∀ ks ∈ given kinds, row.kind ∈ ks) ∧
    ∀ ts ∈ given tickers, row.fromTicker ∈ ts ∨ row.toTicker ∈ ts

instance (kinds : Option (List Text)) (minWeight : Python.Float) (tickers : Option (List Text))
    (row : RelationRow) : Decidable (row.Selected kinds minWeight tickers) :=
  inferInstanceAs (Decidable (_ ∧ _ ∧ _))

/-- The filters can be sent to the database. -/
def EdgesSendable (kinds tickers : Option (List Text)) : Prop :=
  (∀ ks ∈ given kinds, ∀ s ∈ ks, Storable s) ∧ ∀ ts ∈ given tickers, ∀ s ∈ ts, Storable s

instance (kinds tickers : Option (List Text)) : Decidable (EdgesSendable kinds tickers) :=
  inferInstanceAs (Decidable (_ ∧ _))

/-- The edges that `count_relations` counts. -/
def selectedRows (table : RelationTable) (kinds : Option (List Text)) (minWeight : Python.Float)
    (tickers : Option (List Text)) : List RelationRow :=
  if EdgesSendable kinds tickers then
    table.rows.filter fun row => row.Selected kinds minWeight tickers
  else []

/-- The clauses hold of the rows that `P` says, and their arguments can be sent where `S` holds.
Every argument is named, under its number. -/
structure EdgeWhere.Means (w : EdgeWhere) (P : RelationRow → Prop) (S : Prop) : Prop where
  binds : w.Binds
  storable : (∀ p ∈ w.params, p.Storable) ↔ S
  holds : ∀ more row, (∀ c ∈ w.clauses, c.holds (w.params ++ more) row = true) ↔ P row

namespace EdgeWhere

variable {w : EdgeWhere} {P : RelationRow → Prop} {S : Prop}

theorem argument_append (params more : List EdgeParam) (p : EdgeParam) :
    EdgeParam.argument (params ++ p :: more) (params.length + 1) = some p := by
  simp [EdgeParam.argument]

theorem means_weightGe (minWeight : Python.Float) :
    Means ⟨[.weightGe 1], [.double minWeight]⟩
      (fun row => sqlLe minWeight row.weight = true) True where
  binds := by simp [Binds, EdgeClause.references, EdgeParam.type]
  storable := by simp [EdgeParam.Storable]
  holds more row := by
    simp [EdgeClause.holds, EdgeParam.doubleArgument, EdgeParam.argument]

/-- One more argument, with a clause that names it. -/
theorem Means.add (h : w.Means P S) {p : EdgeParam} {c : Nat → EdgeClause}
    {Q : RelationRow → Prop} {T : Prop}
    (hreferences : ∀ i r, r ∈ (c i).references ↔ r = (p.type, i))
    (hstorable : p.Storable ↔ T)
    (hholds : ∀ params more row,
      (c (params.length + 1)).holds (params ++ p :: more) row = true ↔ Q row) :
    ((w.append p).clause (c (w.append p).params.length)).Means (fun row => P row ∧ Q row)
      (S ∧ T) where
  binds := by
    have hlength : (w.params ++ [p]).length = w.params.length + 1 := List.length_append
    simp only [Binds, append, clause, hlength, List.map_append, List.zipIdx_append, List.mem_append,
      List.length_map]
    constructor
    · intro c' hc' r hr
      rcases hc' with hc' | hc'
      · exact .inl (h.binds.1 c' hc' r hr)
      · rw [List.mem_singleton.mp hc', hreferences] at hr
        simp [hr, Nat.add_comm]
    · intro r hr
      rcases hr with hr | hr
      · obtain ⟨c', hc', hr⟩ := h.binds.2 r hr
        exact ⟨c', .inl hc', hr⟩
      · refine ⟨_, .inr List.mem_cons_self, (hreferences _ _).mpr ?_⟩
        simpa [Nat.add_comm] using hr
  storable := by
    simp only [append, clause, List.forall_mem_append, List.forall_mem_singleton, h.storable,
      hstorable]
  holds more row := by
    have hlength : (w.params ++ [p]).length = w.params.length + 1 := List.length_append
    simp only [append, clause, hlength, List.append_assoc, List.singleton_append,
      List.forall_mem_append, List.forall_mem_singleton, h.holds, hholds]

theorem Means.kindAny (h : w.Means P S) (kinds : List Text) :
    let w₁ := w.append (.texts kinds)
    (w₁.clause (.kindAny w₁.params.length)).Means (fun row => P row ∧ row.kind ∈ kinds)
      (S ∧ ∀ s ∈ kinds, Storable s) := by
  apply h.add
  · intro i r
    exact List.mem_singleton
  · rfl
  · intro params more row
    simp [EdgeClause.holds, EdgeParam.textsArgument, argument_append]

theorem Means.endAny (h : w.Means P S) (tickers : List Text) :
    let w₁ := w.append (.texts tickers)
    (w₁.clause (.endAny w₁.params.length w₁.params.length)).Means
      (fun row => P row ∧ (row.fromTicker ∈ tickers ∨ row.toTicker ∈ tickers))
      (S ∧ ∀ s ∈ tickers, Storable s) := by
  apply h.add (c := fun i => .endAny i i)
  · intro i r
    simp [EdgeClause.references, EdgeParam.type]
  · rfl
  · intro params more row
    simp [EdgeClause.holds, EdgeParam.textsArgument, argument_append]

theorem Means.elim {α : Type} (h : w.Means P S) {x : Option α} {f : α → EdgeWhere}
    {Q : α → RelationRow → Prop} {T : α → Prop}
    (hf : ∀ a, (f a).Means (fun row => P row ∧ Q a row) (S ∧ T a)) :
    (x.elim w f).Means (fun row => P row ∧ ∀ a ∈ x, Q a row) (S ∧ ∀ a ∈ x, T a) := by
  cases x with
  | none => simpa using h
  | some a => simpa using hf a

/-- What the database answers to a clause. -/
theorem Means.select_eq (h : w.Means P S) [DecidablePred P] [Decidable S] (table : RelationTable) :
    w.select table =
      if S then .ok (table.rows.filter fun row => P row) else raise postgresError := by
  have hrow (row : RelationRow) :
      (w.clauses.all fun c => c.holds w.params row) = decide (P row) := by
    have hiff := h.holds [] row
    rw [List.append_nil] at hiff
    rw [Bool.eq_iff_iff, List.all_eq_true, decide_eq_true_eq, hiff]
  rw [select, if_neg (not_not_intro h.binds)]
  simp only [hrow]
  by_cases hS : S
  · have hsent : ¬ ∃ p ∈ w.params, ¬ p.Storable := by
      intro hbad
      obtain ⟨p, hp, hbad⟩ := hbad
      exact hbad (h.storable.mpr hS p hp)
    rw [if_neg hsent, if_pos hS]
  · have hunsent : ∃ p ∈ w.params, ¬ p.Storable := by
      by_contra hall
      push Not at hall
      exact hS (h.storable.mp hall)
    rw [if_pos hunsent, if_neg hS]

end EdgeWhere

theorem relationsWhere_means (kinds : Option (List Text)) (minWeight : Python.Float)
    (tickers : Option (List Text)) :
    (relationsWhere kinds minWeight tickers).Means
      (fun row => row.Selected kinds minWeight tickers) (EdgesSendable kinds tickers) := by
  have hweight := EdgeWhere.means_weightGe minWeight
  have hkinds := hweight.elim (x := given kinds) hweight.kindAny
  have h := hkinds.elim (x := given tickers) hkinds.endAny
  simp only [true_and, and_assoc] at h
  exact h

theorem relationsWhere_select (table : RelationTable) (kinds : Option (List Text))
    (minWeight : Python.Float) (tickers : Option (List Text)) :
    (relationsWhere kinds minWeight tickers).select table =
      if EdgesSendable kinds tickers then
        .ok (table.rows.filter fun row => row.Selected kinds minWeight tickers)
      else raise postgresError :=
  (relationsWhere_means kinds minWeight tickers).select_eq table

theorem rowToRelation_ok (printable : Nat → Bool) {row : RelationRow} (h : row.Admitted) :
    ∃ kind hweight, kind.value = row.kind ∧ rowToRelation printable row =
      .ok ⟨row.fromTicker, row.toTicker, kind, row.weight, row.directed, row.evidence,
        hweight⟩ := by
  obtain ⟨kind, hkind, hvalue⟩ := List.mem_map.mp h.kind_check
  rw [rowToRelation]
  cases hfind : RelationKind.members.find? fun k => k.value = row.kind with
  | none => exact absurd hvalue (by simpa using List.find?_eq_none.mp hfind kind hkind)
  | some found =>
      have hfound : found.value = row.kind := by simpa using List.find?_some hfind
      exact ⟨found, h.weight_check, hfound, dif_pos h.weight_check⟩

/-- The edge is the one of the row. -/
structure RelationModel.Shows (edge : RelationModel) (row : RelationRow) : Prop where
  fromTicker : edge.fromTicker = row.fromTicker
  toTicker : edge.toTicker = row.toTicker
  kind : edge.kind.value = row.kind
  weight : edge.weight = row.weight
  directed : edge.directed = row.directed
  evidence : edge.evidence = row.evidence

theorem rowToRelation_shows (printable : Nat → Bool) {row : RelationRow} (h : row.Admitted) :
    ∃ edge, rowToRelation printable row = .ok edge ∧ edge.Shows row := by
  obtain ⟨kind, hweight, hkind, hrow⟩ := rowToRelation_ok printable h
  exact ⟨_, hrow, rfl, rfl, hkind, rfl, rfl, rfl⟩

theorem admitted_of_mem_selectedRows {table : RelationTable} {kinds tickers : Option (List Text)}
    {minWeight : Python.Float} {row : RelationRow}
    (h : row ∈ selectedRows table kinds minWeight tickers) : row.Admitted := by
  rw [selectedRows] at h
  split at h
  · exact table.admitted row (List.mem_of_mem_filter h)
  · cases h

section
variable {κ : Type} [LinearOrder κ] {collate : Text → κ} (order : OrderBy (edgeOrder collate))
  (printable : Nat → Bool) (table : RelationTable)

theorem listRelations_eq (kinds : Option (List Text)) (minWeight : Python.Float)
    (tickers : Option (List Text)) :
    listRelations order printable table kinds minWeight tickers =
      (order.arrange (selectedRows table kinds minWeight tickers)).mapM
        (rowToRelation printable) := by
  rw [listRelations, relationsWhere_select, selectedRows]
  by_cases h : EdgesSendable kinds tickers
  · rw [if_pos h, if_pos h]
    rfl
  · have hnil : order.arrange [] = [] := (order.perm []).eq_nil
    rw [if_neg h, if_neg h, hnil]
    rfl

theorem countRelations_eq (kinds : Option (List Text)) (minWeight : Python.Float)
    (tickers : Option (List Text)) :
    countRelations table kinds minWeight tickers =
      .ok (selectedRows table kinds minWeight tickers).length := by
  have hselect : (relationsCountWhere kinds minWeight tickers).select table =
      (relationsWhere kinds minWeight tickers).select table := rfl
  rw [countRelations, hselect, relationsWhere_select, selectedRows]
  by_cases h : EdgesSendable kinds tickers
  · rw [if_pos h, if_pos h]
    rfl
  · rw [if_neg h, if_neg h]
    rfl

/-- Each edge that is counted is listed once, the heavier ones first and those of one weight in
the order of their ends. -/
theorem relations_agree (kinds : Option (List Text)) (minWeight : Python.Float)
    (tickers : Option (List Text)) :
    countRelations table kinds minWeight tickers =
        .ok (selectedRows table kinds minWeight tickers).length ∧
      ∃ rows edges, listRelations order printable table kinds minWeight tickers = .ok edges ∧
        List.Forall₂ RelationModel.Shows edges rows ∧
        rows.Perm (selectedRows table kinds minWeight tickers) ∧
        rows.Pairwise fun a b => edgeOrder collate a ≤ edgeOrder collate b := by
  refine ⟨countRelations_eq table kinds minWeight tickers, ?_⟩
  have hshown : ∀ row ∈ order.arrange (selectedRows table kinds minWeight tickers),
      ∃ edge, rowToRelation printable row = .ok edge ∧ edge.Shows row := by
    intro row hrow
    exact rowToRelation_shows printable (admitted_of_mem_selectedRows (order.mem_arrange.mp hrow))
  obtain ⟨edges, hedges, hshows⟩ := mapM_forall₂ hshown
  exact ⟨_, edges, (listRelations_eq ..).trans hedges, hshows, order.perm _, order.sorted _⟩

end

end NexusBackend
