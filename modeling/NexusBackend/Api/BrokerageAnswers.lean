import NexusBackend.Api.Router
import NexusBackend.Kis.Decoding

/-!
What `GET /balance` and `POST /order` make of an answer of the brokerage, whatever its status and
body: the result, or 503. Where a decoder lets an error of the language through, or a holding
comes without a text for its symbol or name, it is neither.
-/
namespace NexusBackend

open Python

/-- What was asked for, or 503. -/
def Response.IsServed : Response → Prop
  | .balance _ | .order _ => True
  | .problem detail _ => detail.status = 503
  | .page _ => False

theorem internalError_not_served : ¬ internalError.IsServed := by
  change ¬ (500 : Nat) = 503
  decide

namespace KisBalanceClient

/-! ### Holdings as the response model takes them -/

def IsLabelled (item : HoldingItem) : Prop :=
  (∃ s, item.symbol = .str s) ∧ ∃ s, item.name = .str s

theorem toDto?_isSome_iff (item : HoldingItem) :
    (∃ dto, item.toDto? = some dto) ↔ IsLabelled item := by
  rw [HoldingItem.toDto?, IsLabelled]
  split
  · rename_i symbol name hsymbol hname
    exact iff_of_true ⟨_, rfl⟩ ⟨⟨symbol, hsymbol⟩, name, hname⟩
  · rename_i hother
    refine iff_of_false ?_ ?_
    · rintro ⟨dto, h⟩
      cases h
    · rintro ⟨⟨symbol, hsymbol⟩, name, hname⟩
      exact hother symbol name hsymbol hname

theorem mapM_toDto?_iff (items : List HoldingItem) :
    (∃ dtos, items.mapM HoldingItem.toDto? = some dtos) ↔ ∀ item ∈ items, IsLabelled item := by
  induction items with
  | nil => exact iff_of_true ⟨[], rfl⟩ nofun
  | cons item items ih =>
      rw [List.forall_mem_cons, ← ih, ← toDto?_isSome_iff, List.mapM_cons]
      constructor
      · rintro ⟨dtos, h⟩
        obtain ⟨dto, hdto, h⟩ := Option.bind_eq_some_iff.mp h
        obtain ⟨rest, hrest, -⟩ := Option.bind_eq_some_iff.mp h
        exact ⟨⟨dto, hdto⟩, rest, hrest⟩
      · rintro ⟨⟨dto, hdto⟩, rest, hrest⟩
        rw [hdto, hrest]
        exact ⟨_, rfl⟩

/-- Every member of a holding reads. -/
def RowReads (pairs : List (Text × Json)) : Prop := ∀ m ∈ holdingMembers, m.Reads pairs

theorem readHolding_ok_iff (pairs : List (Text × Json)) :
    (∃ item, readHolding (.obj pairs) = .ok item) ↔ RowReads pairs := by
  rw [Member.exists_ok_iff (readHolding_members (.obj pairs)), RowReads]
  simp only [Member.reads_iff]

theorem readHolding_labels {pairs : List (Text × Json)} {item : HoldingItem}
    (h : readHolding (.obj pairs) = .ok item) :
    Json.get? pairs (text "pdno") = some item.symbol ∧
      Json.get? pairs (text "prdt_name") = some item.name := by
  have hindex {key : Text} {v : Json} (hv : (Json.obj pairs).index key = .ok v) :
      Json.get? pairs key = some v := by
    rw [Json.index] at hv
    split at hv
    · rename_i w hw
      rw [hw, Except.ok.inj hv]
    · cases hv
  rw [readHolding] at h
  obtain ⟨symbol, hsymbol, h⟩ := bind_eq_ok_iff.mp h
  obtain ⟨name, hname, h⟩ := bind_eq_ok_iff.mp h
  simp only [bind_eq_ok_iff] at h
  obtain ⟨_, -, _, -, _, -, _, -, _, -, _, -, _, -, _, -, _, -, _, -, _, -, _, -, hitem⟩ := h
  cases hitem
  exact ⟨hindex hsymbol, hindex hname⟩

/-- The symbol and the name of the row are texts. -/
def RowLabelled (pairs : List (Text × Json)) : Prop :=
  (∃ s, Json.get? pairs (text "pdno") = some (.str s)) ∧
    ∃ s, Json.get? pairs (text "prdt_name") = some (.str s)

/-- A row that is skipped, or read with texts for its symbol and name. -/
def RowServes (row : Json) : Prop :=
  ∃ pairs, row = .obj pairs ∧ ¬ Trips pairs ∧ (RowReads pairs → RowLabelled pairs)

theorem RowServes.parses {row : Json} (h : RowServes row) : RowParses row := by
  obtain ⟨pairs, hrow, htrips, -⟩ := h
  exact ⟨pairs, hrow, htrips⟩

theorem labelled_iff {pairs : List (Text × Json)} {item : HoldingItem}
    (h : readHolding (.obj pairs) = .ok item) : IsLabelled item ↔ RowLabelled pairs := by
  obtain ⟨hsymbol, hname⟩ := readHolding_labels h
  rw [IsLabelled, RowLabelled, hsymbol, hname]
  simp only [Option.some.injEq]

theorem holdingsOf_labelled_iff {rows : List Json} (hrows : ∀ row ∈ rows, RowParses row) :
    (∀ item ∈ holdingsOf rows, IsLabelled item) ↔ ∀ row ∈ rows, RowServes row := by
  constructor
  · intro h row hrow
    obtain ⟨pairs, rfl, htrips⟩ := hrows row hrow
    refine ⟨pairs, rfl, htrips, ?_⟩
    intro hreads
    obtain ⟨item, hitem⟩ := (readHolding_ok_iff pairs).mpr hreads
    refine (labelled_iff hitem).mp (h item ?_)
    exact List.mem_filterMap.mpr ⟨_, hrow, by rw [hitem]; rfl⟩
  · intro h item hmem
    obtain ⟨row, hrow, hitem⟩ := List.mem_filterMap.mp hmem
    obtain ⟨pairs, rfl, -, hlabelled⟩ := h row hrow
    cases hread : readHolding (.obj pairs) with
    | error e =>
        rw [hread] at hitem
        cases hitem
    | ok item' =>
        rw [hread] at hitem
        obtain rfl := Option.some.inj hitem
        exact (labelled_iff hread).mpr (hlabelled ((readHolding_ok_iff pairs).mp ⟨_, hread⟩))

/-! ### The balance -/

/-- As `PayloadParses`, with texts for the symbols and names. -/
def PayloadServes (payload : Json) : Prop :=
  ∃ pairs, payload = .obj pairs ∧
    ((listOf pairs (text "output2")).truthy = true →
      ∃ rows first rest, listOf pairs (text "output1") = .arr rows ∧
        (∀ row ∈ rows, RowServes row) ∧
        listOf pairs (text "output2") = .arr (first :: rest) ∧ SummaryReads first)

theorem PayloadServes.parses {payload : Json} (h : PayloadServes payload) :
    PayloadParses payload := by
  obtain ⟨pairs, hpayload, hlists⟩ := h
  refine ⟨pairs, hpayload, fun htruthy => ?_⟩
  obtain ⟨rows, first, rest, hrows, hserves, hfirst, hsummary⟩ := hlists htruthy
  exact ⟨rows, first, rest, hrows, fun row hrow => (hserves row hrow).parses, hfirst, hsummary⟩

/-- What is claimed of a response to the inquiry of the balance. -/
structure Lawful (resp : HttpResponse) : Prop where
  settles : ¬ Escapes clientErrors (parseResponse resp)
  answers : ∀ now, (balanceResponse now (settle (.ok resp))).IsServed
  keeps : ∀ pairs rows first rest s, resp.statusCode < 400 → resp.json = .ok (.obj pairs) →
    listOf pairs (text "output1") = .arr rows →
    listOf pairs (text "output2") = .arr (first :: rest) → parseSummary first [] = .ok s →
    parseResponse resp = .ok { s with holdings := holdingsOf rows }

/-- An error status, a body that is no JSON, or a payload that serves. -/
def Serves (resp : HttpResponse) : Prop :=
  400 ≤ resp.statusCode ∨ Decodes PayloadServes resp.json

theorem settle_ok (resp : HttpResponse) : settle (.ok resp) = parseResponse resp := rfl

theorem balanceResponse_error_iff (now : UtcTime) (e : Exn) :
    (balanceResponse now (.error e)).IsServed ↔ e.isInstance clientErrors = true := by
  have hkinds : brokerageErrors = clientErrors := rfl
  rw [balanceResponse, hkinds]
  cases e.isInstance clientErrors with
  | true => exact iff_of_true rfl rfl
  | false => exact iff_of_false internalError_not_served Bool.false_ne_true

theorem balanceResponse_ok_iff (now : UtcTime) (r : BalanceResult) :
    (balanceResponse now (.ok r)).IsServed ↔ ∀ item ∈ r.holdings, IsLabelled item := by
  rw [← mapM_toDto?_iff, balanceResponse]
  cases r.holdings.mapM HoldingItem.toDto? with
  | none =>
      refine iff_of_false internalError_not_served ?_
      rintro ⟨dtos, h⟩
      cases h
  | some dtos => exact iff_of_true trivial ⟨dtos, rfl⟩

theorem parseResponse_payload {resp : HttpResponse} (hstatus : resp.statusCode < 400)
    {payload : Json} (hjson : resp.json = .ok payload) :
    parseResponse resp = ofPayload payload := by
  rw [parseResponse_eq hstatus, hjson, tryExcept_ok, ok_bind]

/-- A response that gives a balance has a payload that does. -/
theorem parseResponse_ok {resp : HttpResponse} {r : BalanceResult}
    (h : parseResponse resp = .ok r) :
    resp.statusCode < 400 ∧ ∃ payload, resp.json = .ok payload ∧ ofPayload payload = .ok r := by
  by_cases hstatus : resp.statusCode < 400
  · rw [parseResponse_eq hstatus] at h
    obtain ⟨payload, hpayload, h⟩ := bind_eq_ok_iff.mp h
    refine ⟨hstatus, payload, ?_, h⟩
    cases hjson : resp.json with
    | ok v =>
        rw [hjson] at hpayload
        exact hpayload
    | error e =>
        rw [hjson, tryExcept] at hpayload
        split at hpayload
        · cases hpayload
        · cases hpayload
  · rw [parseResponse] at h
    split at h
    · cases h
    · rw [if_pos (Nat.not_lt.mp hstatus)] at h
      cases h

theorem Lawful.serves {resp : HttpResponse} (h : Lawful resp) : Serves resp := by
  obtain hstatus | hdecodes := (parseResponse_settles_iff resp).mp h.settles
  · exact .inl hstatus
  by_cases hstatus : 400 ≤ resp.statusCode
  · exact .inl hstatus
  refine .inr ⟨?_, hdecodes.2⟩
  intro payload hjson
  obtain ⟨pairs, rfl, hlists⟩ := hdecodes.1 payload hjson
  refine ⟨pairs, rfl, fun htruthy => ?_⟩
  obtain ⟨rows, first, rest, hrows, hparse, hfirst, hsummary⟩ := hlists htruthy
  obtain ⟨s, hs⟩ := (parseSummary_ok_iff first []).mpr hsummary
  have hresult := h.keeps pairs rows first rest s (Nat.not_le.mp hstatus) hjson hrows hfirst hs
  have hserved := h.answers ⟨sampleDate, Time.midnight⟩
  rw [settle_ok, hresult, balanceResponse_ok_iff, holdingsOf_labelled_iff hparse] at hserved
  exact ⟨rows, first, rest, hrows, hserved, hfirst, hsummary⟩

theorem Serves.settles {resp : HttpResponse} (h : Serves resp) :
    ¬ Escapes clientErrors (parseResponse resp) :=
  (parseResponse_settles_iff resp).mpr
    (h.imp_right fun hd => hd.mono (fun _ => PayloadServes.parses) fun _ => id)

theorem Serves.answers {resp : HttpResponse} (h : Serves resp) (now : UtcTime) :
    (balanceResponse now (settle (.ok resp))).IsServed := by
  rw [settle_ok]
  cases hparse : parseResponse resp with
  | error e =>
      rw [balanceResponse_error_iff, ← Bool.not_eq_false]
      intro he
      exact h.settles ⟨e, hparse, he⟩
  | ok r =>
      obtain ⟨hstatus, payload, hjson, hpayload⟩ := parseResponse_ok hparse
      obtain ⟨pairs, rows, first, rest, s, rfl, hrows, hrowsParse, hfirst, -, rfl⟩ :=
        ofPayload_ok_iff.mp hpayload
      have hdecodes := h.resolve_left (Nat.not_le.mpr hstatus)
      obtain ⟨pairs', heq, hlists⟩ := hdecodes.1 _ hjson
      obtain rfl := Json.obj.inj heq
      obtain ⟨rows', _, _, hrows', hserves, -, -⟩ := hlists (by rw [hfirst]; rfl)
      obtain rfl := Json.arr.inj (hrows.symm.trans hrows')
      rw [balanceResponse_ok_iff]
      exact (holdingsOf_labelled_iff hrowsParse).mpr hserves

theorem Serves.keeps {resp : HttpResponse} (h : Serves resp) {pairs : List (Text × Json)}
    {rows rest : List Json} {first : Json} {s : BalanceResult} (hstatus : resp.statusCode < 400)
    (hjson : resp.json = .ok (.obj pairs)) (hrows : listOf pairs (text "output1") = .arr rows)
    (hfirst : listOf pairs (text "output2") = .arr (first :: rest))
    (hs : parseSummary first [] = .ok s) :
    parseResponse resp = .ok { s with holdings := holdingsOf rows } := by
  have hdecodes := h.resolve_left (Nat.not_le.mpr hstatus)
  obtain ⟨pairs', heq, hlists⟩ := hdecodes.1 _ hjson
  obtain rfl := Json.obj.inj heq
  obtain ⟨rows', _, _, hrows', hserves, -, -⟩ := hlists (by rw [hfirst]; rfl)
  obtain rfl := Json.arr.inj (hrows.symm.trans hrows')
  rw [parseResponse_payload hstatus hjson]
  exact ofPayload_ok_iff.mpr ⟨pairs, rows, first, rest, s, rfl, hrows,
    fun row hrow => (hserves row hrow).parses, hfirst, hs, rfl⟩

theorem lawful_iff (resp : HttpResponse) : Lawful resp ↔ Serves resp :=
  ⟨Lawful.serves, fun h => ⟨h.settles, h.answers, fun _ _ _ _ _ => h.keeps⟩⟩

end KisBalanceClient

namespace KisOrderClient

/-! ### The order -/

/-- What is claimed of a response to an order. -/
structure Lawful (pr : Json.Printing) (resp : HttpResponse) : Prop where
  settles : ¬ Escapes clientErrors (parseResponse pr resp)
  answers : ∀ body mockId now, (orderResponse body mockId now (settle pr (.ok resp))).IsServed

/-- An error status of the authentication, a body that is no JSON, or a payload that prints. -/
def Serves (pr : Json.Printing) (resp : HttpResponse) : Prop :=
  (resp.statusCode = 401 ∨ resp.statusCode = 403) ∨ Decodes (PayloadPrints pr) resp.json

theorem not_valueError_of_declared {e : Exn} (h : e.isInstance clientErrors = true) :
    e.isInstance [.valueError] = false := by
  obtain ⟨kind, hkind, hisA⟩ := List.any_eq_true.mp h
  obtain ⟨kind', message⟩ := e
  have hsame : kind' = kind ∨ kind'.base = some kind := by
    simpa [ExnKind.isA] using hisA
  have hnamed : ∃ name, kind = .named name := by
    obtain rfl | hkind := List.mem_cons.mp hkind
    · exact ⟨_, rfl⟩
    · exact ⟨_, List.mem_singleton.mp hkind⟩
  obtain ⟨name, rfl⟩ := hnamed
  obtain rfl | hbase := hsame
  · rfl
  · cases kind' with
    | _ => cases hbase

theorem lawful_iff (pr : Json.Printing) (resp : HttpResponse) :
    Lawful pr resp ↔ Serves pr resp := by
  rw [Serves, ← parseResponse_settles_iff]
  refine ⟨Lawful.settles, fun h => ⟨h, ?_⟩⟩
  intro body mockId now
  change (orderResponse body mockId now (parseResponse pr resp)).IsServed
  cases hparse : parseResponse pr resp with
  | ok result => trivial
  | error e =>
      have he : e.isInstance clientErrors = true := by
        rw [← Bool.not_eq_false]
        intro hfalse
        exact h ⟨e, hparse, hfalse⟩
      have hkinds : brokerageErrors = clientErrors := rfl
      rw [orderResponse, hkinds, not_valueError_of_declared he, he]
      rfl

end KisOrderClient

/-- Both decoders end in a result or a declared error, both routes answer with it, and a malformed
holding costs itself only, exactly for the responses that serve. -/
theorem brokerageAnswers_iff (pr : Json.Printing) (resp : HttpResponse) :
    (KisBalanceClient.Lawful resp ↔ KisBalanceClient.Serves resp) ∧
      (KisOrderClient.Lawful pr resp ↔ KisOrderClient.Serves pr resp) :=
  ⟨KisBalanceClient.lawful_iff resp, KisOrderClient.lawful_iff pr resp⟩

/-- A body that is a list; and one whose only holding is `null`. -/
def listBody : HttpResponse := ⟨200, .ok (.arr [])⟩

def nullHolding : HttpResponse where
  statusCode := 200
  json := .ok (.obj [
    (text "output1", .arr [.null]),
    (text "output2", .arr [.obj [
      (text "dnca_tot_amt", .int 1), (text "tot_evlu_amt", .int 1),
      (text "evlu_pfls_amt_smtl", .int 0), (text "tot_evlu_pfls_rt", .int 0)]])])

theorem listBody_escapes :
    ¬ (∀ resp, ¬ Escapes clientErrors (KisBalanceClient.parseResponse resp)) ∧
      KisBalanceClient.parseResponse listBody = raise .attributeError ∧
      KisOrderClient.parseResponse ⟨1000, 1000, fun _ => true⟩ listBody = raise .attributeError ∧
      KisBalanceClient.parseResponse nullHolding = raise .attributeError ∧
      ¬ (balanceResponse ⟨sampleDate, Time.midnight⟩
        (KisBalanceClient.settle (.ok listBody))).IsServed := by
  refine ⟨?_, rfl, rfl, rfl, internalError_not_served⟩
  intro h
  exact h listBody ⟨⟨.attributeError, []⟩, rfl, rfl⟩

end NexusBackend
