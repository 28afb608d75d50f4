import NexusBackend.Api.AlarmsQuery
import NexusBackend.Persistence.SecuritiesSearch

/-!
`GET /securities`: the filters are parsed, and the page and the total come from the two readers
of the repository.

The search and the limit are what the validation of the framework lets through.
-/
namespace NexusBackend

open Python

/-- `_VALID_MARKETS`, sorted. -/
def validMarkets : List Text := ["KOSDAQ", "KRX", "NASDAQ", "NYSE", "OTHER"].map text

structure SecuritiesQuery where
  market : Option Text := none
  sector : Option Text := none
  search : Option Text := none
  limit : Int := 500
  search_length : ∀ s ∈ search, 1 ≤ s.length ∧ s.length ≤ 64
  limit_range : 1 ≤ limit ∧ limit ≤ 1000

/-- The loop over the tokens of a filter: the first that does not pass is refused. -/
def checkTokens (passes : Text → Bool) (refusal : Text → Text) (tokens : List Text) :
    Except Exn (List Text) :=
  match tokens.find? fun token => !passes token with
  | some token => raise invalidInput (refusal token)
  | none => .ok tokens

def parseTokens (passes : Text → Bool) (refusal : Text → Text) (raw : Option Text)
    (maxItems : Nat) : Except Exn (Option (List Text)) :=
  match parseCsv raw maxItems with
  | none => .ok none
  | some tokens => some <$> checkTokens passes refusal tokens

/-- `_parse_markets`. -/
def parseMarkets (printable : Nat → Bool) (raw : Option Text) : Except Exn (Option (List Text)) :=
  parseTokens (fun token => token ∈ validMarkets)
    (fun token => text "market " ++ reprText printable token ++ text " is not one of " ++
      join 124 validMarkets) raw 10

/-- `_parse_sectors`. -/
def parseSectors (printable : Nat → Bool) (raw : Option Text) : Except Exn (Option (List Text)) :=
  parseTokens (fun token => token.length ≤ 32)
    (fun token => text "sector token length " ++ natText token.length ++ text " > 32 (" ++
      reprText printable token ++ text ")") raw 20

/-- `display_name` of the domain model. -/
def SecurityModel.displayName (sec : SecurityModel) : Text :=
  ((given sec.nameKo).or (given sec.nameEn)).getD sec.ticker

/-- The response model of a security: the domain model with its name to display. -/
structure SecurityDto extends SecurityModel where
  displayName : Text

/-- `_security_to_dto`. -/
def securityToDto (sec : SecurityModel) : SecurityDto := { sec with displayName := sec.displayName }

structure SecurityListDto where
  items : List SecurityDto
  total : Nat
  serverTime : UtcTime

section
variable {κ : Type} [LinearOrder κ] (db : SearchDatabase κ) (table : SecurityTable)

/-- The guarded block of `securities_list`. -/
def parseFilters (q : SecuritiesQuery) :
    Except Exn (ProblemDetail ⊕ Option (List Text) × Option (List Text)) :=
  tryExcept
    (do
      let markets ← parseMarkets db.printable q.market
      let sectors ← parseSectors db.printable q.sector
      return .inr (markets, sectors))
    [invalidInput] fun e => .ok (.inl (invalidInputResponse e))

/-- `securities_list`. -/
def securitiesList (serverTime : UtcTime) (q : SecuritiesQuery) :
    Except Exn (ProblemDetail ⊕ SecurityListDto) := do
  match ← parseFilters db q with
  | .inl problem => return .inl problem
  | .inr (markets, sectors) =>
      let items ← db.listSecurities table markets sectors q.search q.limit
      let total ← db.countSecurities table markets sectors q.search
      return .inr ⟨items.map securityToDto, total, serverTime⟩

end

/-! ### What is answered -/

/-- A token of the filter does not pass. -/
def HasBadToken (passes : Text → Bool) (raw : Option Text) (maxItems : Nat) : Prop :=
  ∃ tokens, parseCsv raw maxItems = some tokens ∧ ∃ token ∈ tokens, passes token = false

theorem parseTokens_cases (passes : Text → Bool) (refusal : Text → Text) (raw : Option Text)
    (maxItems : Nat) :
    (HasBadToken passes raw maxItems ∧
        ∃ detail, parseTokens passes refusal raw maxItems = raise invalidInput detail) ∨
      ¬ HasBadToken passes raw maxItems ∧
        parseTokens passes refusal raw maxItems = .ok (parseCsv raw maxItems) := by
  rw [parseTokens, HasBadToken]
  cases parseCsv raw maxItems with
  | none => exact .inr ⟨nofun, rfl⟩
  | some tokens =>
      dsimp only
      rw [checkTokens]
      cases hfind : tokens.find? fun token => !passes token with
      | some token =>
          have hbad : passes token = false := by simpa using List.find?_some hfind
          exact .inl ⟨⟨tokens, rfl, token, List.mem_of_find?_eq_some hfind, hbad⟩, _, rfl⟩
      | none =>
          refine .inr ⟨?_, rfl⟩
          rintro ⟨_, ⟨⟩, token, htoken, hbad⟩
          have hpasses := List.find?_eq_none.mp hfind token htoken
          rw [hbad] at hpasses
          exact hpasses rfl

section
variable {κ : Type} [LinearOrder κ] (db : SearchDatabase κ) (table : SecurityTable)

/-- A market that is none, or a sector that is too long. -/
def SecuritiesQuery.Refused (q : SecuritiesQuery) : Prop :=
  HasBadToken (fun token => token ∈ validMarkets) q.market 10 ∨
    HasBadToken (fun token => token.length ≤ 32) q.sector 20

/-- The request is refused with 400, or answered with the total and the first rows of it. -/
theorem securitiesList_answers (serverTime : UtcTime) (q : SecuritiesQuery) :
    (q.Refused ∧ ∃ detail, securitiesList db table serverTime q =
        .ok (.inl (invalidInputResponse ⟨invalidInput, detail⟩))) ∨
      ¬ q.Refused ∧ ∃ rows items,
        Ranking.IsFirst (fun row => db.collate row.ticker) q.limit.toNat rows
          (db.countedRows table (parseCsv q.market 10) (parseCsv q.sector 20) q.search) ∧
        rows.mapM db.rowToSecurity = .ok items ∧
        securitiesList db table serverTime q = .ok (.inr {
          items := items.map securityToDto
          total := (db.countedRows table (parseCsv q.market 10) (parseCsv q.sector 20)
            q.search).length
          serverTime := serverTime }) := by
  rw [securitiesList, parseFilters, SecuritiesQuery.Refused]
  obtain ⟨hmarket, detail, hmarkets⟩ | ⟨hmarket, hmarkets⟩ := parseTokens_cases
    (fun token => token ∈ validMarkets) _ q.market 10
  · refine .inl ⟨.inl hmarket, detail, ?_⟩
    rw [parseMarkets, hmarkets]
    rfl
  obtain ⟨hsector, detail, hsectors⟩ | ⟨hsector, hsectors⟩ := parseTokens_cases
    (fun token => token.length ≤ 32) _ q.sector 20
  · refine .inl ⟨.inr hsector, detail, ?_⟩
    rw [parseMarkets, hmarkets, ok_bind, parseSectors, hsectors]
    rfl
  have hlimit : q.limit < 2 ^ 63 := lt_of_le_of_lt q.limit_range.2 (by norm_num)
  obtain ⟨hcount, rows, items, hfirst, hitems, hlist⟩ := db.answers_agree table
    (parseCsv q.market 10) (parseCsv q.sector 20) q.search hlimit
  refine .inr ⟨not_or.mpr ⟨hmarket, hsector⟩, rows, items, hfirst, hitems, ?_⟩
  rw [parseMarkets, hmarkets, ok_bind, parseSectors, hsectors, ok_bind]
  change (do
    let items ← db.listSecurities table (parseCsv q.market 10) (parseCsv q.sector 20) q.search
      q.limit
    let total ← db.countSecurities table (parseCsv q.market 10) (parseCsv q.sector 20) q.search
    return Sum.inr (SecurityListDto.mk (items.map securityToDto) total serverTime)) = _
  rw [hlist, ok_bind, hcount]
  rfl

end

end NexusBackend
