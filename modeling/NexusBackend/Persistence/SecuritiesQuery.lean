import NexusBackend.Library.KeyedTable
import NexusBackend.Library.LetterCase
import NexusBackend.Library.LikePattern
import NexusBackend.Library.Ranking
import NexusBackend.Persistence.AuditView

/-!
`SecuritiesRepository.list_securities` and `count_securities`: their two builders of a `WHERE`
clause with numbered parameters, and what the database makes of the clause.

How a letter is lowered, which characters `repr` shows and how tickers are ordered are tables of
the interpreter and the database. A search is lowered by the interpreter where it meets a name and
by the database where it meets a ticker; `ILIKE` is `LIKE` between lowered texts. No alias is NULL.
-/
namespace NexusBackend

open Python

/-- The signs of `LIKE`: a per cent sign, an underscore and a backslash. -/
def sqlWildcards : Wildcards Nat := ⟨37, 95, 92, by decide, by decide, by decide⟩

instance (s : Text) : Decidable (Storable s) := inferInstanceAs (Decidable (_ ∧ _))

structure SearchDatabase (κ : Type) extends CaseTable where
  upper : Text → Text
  printable : Nat → Bool
  sqlLower : Nat → Text
  collate : Text → κ
  toLower_plain : ∀ c, ¬ sqlWildcards.IsSign c → sqlWildcards.IsPlain (toLower c)
  toLower_storable : ∀ c, Storable [c] → Storable (toLower c)
  upper_storable : ∀ s, Storable s → Storable (upper s)
  sqlLower_lower : ∀ c, ∀ d ∈ sqlLower c, sqlLower d = [d]
  sqlLower_sign : ∀ c, sqlWildcards.IsSign c → sqlLower c = [c]
  sqlLower_plain : ∀ c, ¬ sqlWildcards.IsSign c → sqlWildcards.IsPlain (sqlLower c)
  sqlLower_storable : ∀ c, Storable [c] → Storable (sqlLower c)

/-! ### Rows -/

inductive Market
  | krx
  | kosdaq
  | nasdaq
  | nyse
  | other
deriving DecidableEq

def Market.value : Market → Text
  | krx => text "KRX"
  | kosdaq => text "KOSDAQ"
  | nasdaq => text "NASDAQ"
  | nyse => text "NYSE"
  | other => text "OTHER"

def Market.members : List Market := [.krx, .kosdaq, .nasdaq, .nyse, .other]

/-- The columns of `security_master`. -/
structure SecurityRow where
  ticker : Text
  nameKo : Option Text
  nameEn : Option Text
  aliases : List Text
  market : Text
  sector : Text
  sectorLabel : Text
  currency : Text
  sharesOutstanding : Option Int
  marketCap : Option Python.Float
  isSubscribed : Bool
  dataSource : Text
  updatedAt : UtcTime

def SecurityRow.texts (row : SecurityRow) : List Text :=
  [row.ticker, row.market, row.sector, row.sectorLabel, row.currency, row.dataSource] ++
    row.nameKo.toList ++ row.nameEn.toList ++ row.aliases

/-- `security_master` with its primary key and the constraint on its markets. -/
structure SecurityTable extends KeyedTable SecurityRow.ticker where
  storable : ∀ row ∈ rows, ∀ s ∈ row.texts, Storable s
  market_check : ∀ row ∈ rows, row.market ∈ Market.members.map Market.value

/-- The domain model of a security. -/
structure SecurityModel where
  ticker : Text
  nameKo : Option Text
  nameEn : Option Text
  aliases : List Text
  market : Market
  sector : Text
  sectorLabel : Text
  currency : Text
  sharesOutstanding : Option Int
  marketCap : Option Python.Float
  lastPrice : Option Python.Float := none
  changePct : Option Python.Float := none
  anomaly : Python.Float := .finite 0
  txVol : Python.Float := .finite 0
  isSubscribed : Bool
  dataSource : Text
  updatedAt : UtcTime

namespace SearchDatabase

variable {κ : Type} (db : SearchDatabase κ)

/-- `_row_to_security`. -/
def rowToSecurity (row : SecurityRow) : Except Exn SecurityModel :=
  match Market.members.find? fun m => m.value = row.market with
  | none =>
      raise .valueError (text "unknown market value " ++ reprText db.printable row.market ++
        text " for ticker " ++ reprText db.printable row.ticker)
  | some market => .ok {
      ticker := row.ticker
      nameKo := row.nameKo
      nameEn := row.nameEn
      aliases := row.aliases
      market := market
      sector := row.sector
      sectorLabel := row.sectorLabel
      currency := row.currency
      sharesOutstanding := row.sharesOutstanding
      marketCap := row.marketCap
      isSubscribed := row.isSubscribed
      dataSource := row.dataSource
      updatedAt := row.updatedAt }

/-- `LOWER`. -/
def sqlLowerText (s : Text) : Text := s.flatMap db.sqlLower

end SearchDatabase

/-! ### Statements -/

inductive SqlType
  | text
  | textArray
  | bigint
deriving DecidableEq

inductive SqlParam
  | text (s : Text)
  | texts (ss : List Text)
  | int (n : Int)

def SqlParam.type : SqlParam → SqlType
  | text _ => .text
  | texts _ => .textArray
  | int _ => .bigint

/-- The argument has a form on the wire that the database takes. -/
def SqlParam.Storable : SqlParam → Prop
  | text s => NexusBackend.Storable s
  | texts ss => ∀ s ∈ ss, NexusBackend.Storable s
  | int n => -2 ^ 63 ≤ n ∧ n < 2 ^ 63

instance (p : SqlParam) : Decidable p.Storable := by
  cases p with
  | text s => exact inferInstanceAs (Decidable (NexusBackend.Storable s))
  | texts ss => exact inferInstanceAs (Decidable (∀ s ∈ ss, NexusBackend.Storable s))
  | int n => exact inferInstanceAs (Decidable (_ ∧ _))

/-- The argument that `$i` stands for. -/
def argument (params : List SqlParam) : Nat → Option SqlParam
  | 0 => none
  | i + 1 => params[i]?

def textArgument (params : List SqlParam) (i : Nat) : Text :=
  match argument params i with
  | some (.text s) => s
  | _ => []

def textsArgument (params : List SqlParam) (i : Nat) : List Text :=
  match argument params i with
  | some (.texts ss) => ss
  | _ => []

def intArgument (params : List SqlParam) (i : Nat) : Int :=
  match argument params i with
  | some (.int n) => n
  | _ => 0

/-- The conditions, with the numbers of their parameters. -/
inductive SqlClause
  | marketAny (i : Nat)
  | sectorAny (i : Nat)
  | search (pat sub ali : Nat)

namespace SqlClause

/-- The parameters that the condition names, with the types it takes them for. -/
def references : SqlClause → List (SqlType × Nat)
  | marketAny i | sectorAny i => [(.textArray, i)]
  | search pat sub ali => [(.text, pat), (.text, sub), (.textArray, ali)]

variable {κ : Type} (db : SearchDatabase κ) (params : List SqlParam)

/-- Its patterns end well. -/
def PatternsEnd : SqlClause → Prop
  | marketAny _ | sectorAny _ => True
  | search pat sub _ =>
      (sqlWildcards.tokens (db.sqlLowerText (textArgument params pat))).isSome ∧
        (sqlWildcards.tokens (textArgument params sub)).isSome

instance (c : SqlClause) : Decidable (c.PatternsEnd db params) := by
  cases c with
  | marketAny i | sectorAny i => exact inferInstanceAs (Decidable True)
  | search pat sub ali => exact inferInstanceAs (Decidable (_ ∧ _))

def holds (row : SecurityRow) : SqlClause → Bool
  | marketAny i => row.market ∈ textsArgument params i
  | sectorAny i => row.sector ∈ textsArgument params i
  | search pat sub ali =>
      sqlWildcards.like (db.sqlLowerText row.ticker)
          (db.sqlLowerText (textArgument params pat)) ||
        sqlWildcards.like (db.sqlLowerText (row.nameKo.getD [])) (textArgument params sub) ||
        sqlWildcards.like (db.sqlLowerText (row.nameEn.getD [])) (textArgument params sub) ||
        row.aliases.any fun a => a ∈ textsArgument params ali

end SqlClause

/-- `clauses` and `params` as a builder fills them. -/
structure Where where
  clauses : List SqlClause := []
  params : List SqlParam := []

namespace Where

/-- `params.append(p)`. -/
def append (w : Where) (p : SqlParam) : Where := { w with params := w.params ++ [p] }

/-- `clauses.append(c)`. -/
def clause (w : Where) (c : SqlClause) : Where := { w with clauses := w.clauses ++ [c] }

def references (w : Where) : List (SqlType × Nat) := w.clauses.flatMap SqlClause.references

end Where

/-- The value, where it is neither `None` nor empty. -/
def given {α : Type} [DecidableEq α] (x : Option (List α)) : Option (List α) :=
  x.filter fun xs => xs ≠ []

/-- The numbered arguments are those that the statement names, of the types it takes. -/
def Binds (references : List (SqlType × Nat)) (params : List SqlParam) : Prop :=
  (∀ r ∈ references, r ∈ (params.map SqlParam.type).zipIdx 1) ∧
    ∀ r ∈ (params.map SqlParam.type).zipIdx 1, r ∈ references

instance (references : List (SqlType × Nat)) (params : List SqlParam) :
    Decidable (Binds references params) := inferInstanceAs (Decidable (_ ∧ _))

def interfaceError : ExnKind := .named (text "InterfaceError")

def postgresError : ExnKind := .named (text "PostgresError")

namespace SearchDatabase

variable {κ : Type} [LinearOrder κ] (db : SearchDatabase κ) (table : SecurityTable)

/-- The rows of `FROM security_master WHERE ...`, with what the rest of the statement refers to. -/
def select (w : Where) (rest : List (SqlType × Nat)) (params : List SqlParam) :
    Except Exn (List SecurityRow) :=
  if ¬ Binds (w.references ++ rest) params then raise interfaceError
  else if ∃ p ∈ params, ¬ p.Storable then raise postgresError
  else if ∃ c ∈ w.clauses, ¬ c.PatternsEnd db params then raise postgresError
  else .ok (table.rows.filter fun row => w.clauses.all fun c => c.holds db params row)

/-- `... ORDER BY ticker ASC LIMIT $i`. -/
def fetch (w : Where) (params : List SqlParam) (i : Nat) : Except Exn (List SecurityRow) := do
  let rows ← db.select table w [(.bigint, i)] params
  return (Ranking.ascending (fun row => db.collate row.ticker) rows).take
    (intArgument params i).toNat

/-- `SELECT COUNT(*) ...`. -/
def fetchCount (w : Where) (params : List SqlParam) : Except Exn Nat :=
  List.length <$> db.select table w [] params

/-! ### The two readers -/

/-- The `WHERE` of `list_securities`. -/
def listWhere (markets sectors : Option (List Text)) (search : Option Text) : Where :=
  let w : Where := {}
  let w := (given markets).elim w fun markets =>
    let w := w.append (.texts markets)
    w.clause (.marketAny w.params.length)
  let w := (given sectors).elim w fun sectors =>
    let w := w.append (.texts sectors)
    w.clause (.sectorAny w.params.length)
  (given search).elim w fun search =>
    let w := w.append (.text (search ++ text "%"))
    let pat := w.params.length
    let w := w.append (.text (text "%" ++ db.lower search ++ text "%"))
    let sub := w.params.length
    let w := w.append (.texts [search, db.lower search, db.upper search])
    let ali := w.params.length
    w.clause (.search pat sub ali)

/-- `list_securities`. -/
def listSecurities (markets sectors : Option (List Text)) (search : Option Text) (limit : Int) :
    Except Exn (List SecurityModel) :=
  if limit < 1 then .ok []
  else do
    let w := db.listWhere markets sectors search
    let params := w.params ++ [.int limit]
    let rows ← tryExcept (some <$> db.fetch table w params params.length)
      Worker.databaseErrors fun _ => .ok none
    match rows with
    | none => return []
    | some rows => rows.mapM db.rowToSecurity

/-- The `WHERE` of `count_securities`. -/
def countWhere (markets sectors : Option (List Text)) (search : Option Text) : Where :=
  let w : Where := {}
  let w := (given markets).elim w fun markets =>
    let w := w.append (.texts markets)
    w.clause (.marketAny w.params.length)
  let w := (given sectors).elim w fun sectors =>
    let w := w.append (.texts sectors)
    w.clause (.sectorAny w.params.length)
  (given search).elim w fun search =>
    let w := w.append (.text (search ++ text "%"))
    let pat := w.params.length
    let w := w.append (.text (text "%" ++ db.lower search ++ text "%"))
    let sub := w.params.length
    let w := w.append (.texts [search, db.lower search, db.upper search])
    let ali := w.params.length
    w.clause (.search pat sub ali)

/-- `count_securities`. -/
def countSecurities (markets sectors : Option (List Text)) (search : Option Text) :
    Except Exn Nat :=
  let w := db.countWhere markets sectors search
  tryExcept (db.fetchCount table w w.params) Worker.databaseErrors fun _ => .ok 0

end SearchDatabase
end NexusBackend
