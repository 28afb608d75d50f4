import NexusBackend.Library.JsonText
import NexusBackend.Trading.Executor

/-!
The two clients of the brokerage account, `KisOrderClient` and `KisBalanceClient`.

A method is cut at its one `await`: first the request it sends, or the exception it
raises before that, then what it makes of the response. The response is its status and
what `resp.json()` returns or raises; an exception of the HTTP library is given the
nearest class that a handler names. Log records and the raw response are left out.
-/
namespace NexusBackend

open Python

inductive KisEnv
  | paper
  | live
deriving DecidableEq

def KisEnv.value : KisEnv → Text
  | paper => text "paper"
  | live => text "live"

/-- The settings that the clients read. -/
structure KisSettings where
  appKey : Text := []
  appSecret : Text := []
  accountNumber : Text := []
  env : KisEnv := .paper

def kisAuthError : ExnKind := .named (text "KisAuthError")

def kisUpstreamError : ExnKind := .named (text "KisUpstreamError")

def httpTimeout : ExnKind := .named (text "TimeoutException")

def httpError : ExnKind := .named (text "HTTPError")

structure HttpResponse where
  statusCode : Nat
  json : Except Exn Json

/-- A request to KIS: a GET sends the fields as parameters, a POST as its JSON body. -/
structure KisRequest where
  url : Text
  fields : List (Text × Text)
  headers : List (Text × Text)
deriving DecidableEq

/-- `_parse_account_number`: `12345678-01` is split at the first hyphen. -/
def parseAccountNumber (raw : Text) : Text × Text :=
  if raw = [] then ([], text "01")
  else
    match splitMax 45 1 raw with
    | [cano, prdt] => (strip cano, if strip prdt = [] then text "01" else strip prdt)
    | _ =>
        let product := (raw.drop 8).dropWhile (· = 48)
        (raw.take 8, if product = [] then text "01" else product)

def KisSettings.host (settings : KisSettings) : Text :=
  if settings.env = .paper then text "https://openapivts.koreainvestment.com:29443"
  else text "https://openapi.koreainvestment.com:9443"

def KisSettings.headers (settings : KisSettings) (token trId : Text) : List (Text × Text) :=
  [(text "content-type", text "application/json; charset=utf-8"),
   (text "authorization", text "Bearer " ++ token),
   (text "appkey", settings.appKey),
   (text "appsecret", settings.appSecret),
   (text "tr_id", trId),
   (text "custtype", text "P")]

/-- A missing or empty access token is refused. -/
def accessToken (token : Option Text) (message : Text) : Except Exn Text :=
  match token with
  | some (c :: cs) => .ok (c :: cs)
  | _ => raise kisAuthError message

def httpSuffix (status : Nat) : Text := text " (HTTP " ++ natText status ++ text ")"

/-- The exceptions of sending, as the clients translate them. -/
def translateSend (what timeout : Text) (sent : Except Exn HttpResponse) :
    Except Exn HttpResponse :=
  tryExcept (tryExcept sent [httpTimeout] fun _ => raise kisUpstreamError timeout)
    [httpError] fun e => raise kisUpstreamError (what ++ text " network failure: " ++ e.message)

/-- `d.get(key, default)`. -/
def getWithDefault (v : Json) (key : Text) (default : Json) : Except Exn Json :=
  (fun x => x.getD default) <$> v.dictGet key

/-! ### Orders -/

inductive OrderType
  | market
  | limit
deriving DecidableEq

/-- The arguments of `place_order`. -/
structure PlaceOrder extends OrderCall where
  orderType : OrderType := .market
  price : Int := 0
deriving DecidableEq

structure KisOrderClient where
  settings : KisSettings

namespace KisOrderClient

/-- `_tr_id_for`, with the table of transaction ids. -/
def trIdFor (env : KisEnv) (action : Action) : Except Exn Text :=
  match env, action with
  | .paper, .buy => .ok (text "VTTC0802U")
  | .paper, .sell => .ok (text "VTTC0801U")
  | .live, .buy => .ok (text "TTTC0802U")
  | .live, .sell => .ok (text "TTTC0801U")
  | env, .hold =>
      raise kisUpstreamError
        (text "no KIS tr_id for env='" ++ env.value ++ text "' action='hold'")

/-- `place_order` up to the POST. -/
def request (client : KisOrderClient) (token : Option Text) (order : PlaceOrder) :
    Except Exn KisRequest := do
  if order.action = .hold then
    raise .valueError (text "place_order requires BUY or SELL, got HOLD")
  else if order.quantity ≤ 0 then
    raise .valueError (text "quantity must be > 0, got " ++ intText order.quantity)
  else if order.orderType = .limit ∧ order.price ≤ 0 then
    raise .valueError (text "limit order requires price > 0")
  else
    let token ← accessToken token (text "place_order requires a valid access_token")
    let trId ← trIdFor client.settings.env order.action
    let (cano, product) := parseAccountNumber client.settings.accountNumber
    return {
      url := client.settings.host ++ text "/uapi/domestic-stock/v1/trading/order-cash"
      fields := [
        (text "CANO", cano),
        (text "ACNT_PRDT_CD", product),
        (text "PDNO", order.symbol),
        (text "ORD_DVSN", if order.orderType = .market then text "01" else text "00"),
        (text "ORD_QTY", intText order.quantity),
        (text "ORD_UNPR", if order.orderType = .market then text "0" else intText order.price)]
      headers := client.settings.headers token trId }

/-- The order number of the response, where it is a string in an object. -/
def orderNumber (output : Json) : Option Text :=
  match output with
  | .obj pairs =>
      match Json.get? pairs (text "ODNO") with
      | some (.str number) => some number
      | _ => none
  | _ => none

def isZero : Json → Bool
  | .str s => s = text "0"
  | _ => false

/-- `_parse_response`. -/
def parseResponse (pr : Json.Printing) (resp : HttpResponse) : Except Exn OrderResult := do
  if resp.statusCode = 401 ∨ resp.statusCode = 403 then
    raise kisAuthError (text "KIS order rejected at auth layer" ++ httpSuffix resp.statusCode)
  else
    let payload ← tryExcept resp.json [.valueError] fun _ =>
      raise kisUpstreamError
        (text "KIS order returned non-JSON response" ++ httpSuffix resp.statusCode)
    let rtCd ← getWithDefault payload (text "rt_cd") (.str (text "?"))
    let msgCd ← getWithDefault payload (text "msg_cd") (.str (text "?"))
    let msg ← getWithDefault payload (text "msg1") (.str [])
    let output := Json.orElse (← payload.dictGet (text "output")) (.obj [])
    return {
      success := decide (resp.statusCode < 400) && isZero rtCd
      orderId := orderNumber output
      message := text "rt_cd=" ++ (← rtCd.toStr pr) ++ text " msg_cd=" ++ (← msgCd.toStr pr) ++
        text " msg=" ++ (← msg.toRepr pr) }

/-- `place_order` from the answer to its POST on. -/
def settle (pr : Json.Printing) (sent : Except Exn HttpResponse) : Except Exn OrderResult := do
  let resp ← translateSend (text "KIS order") (text "KIS order POST timed out after 10.0s") sent
  parseResponse pr resp

end KisOrderClient

/-! ### The balance -/

/-- A position of the account; its symbol and name are not checked here. -/
structure HoldingItem where
  symbol : Json
  name : Json
  quantity : Int
  avgPrice : Python.Float
  currentPrice : Int
  evalAmount : Int
  profitLoss : Int
  profitLossPct : Python.Float

structure BalanceResult where
  cash : Int
  evalTotal : Int
  profitLoss : Int
  profitLossPct : Python.Float
  holdings : List HoldingItem := []

structure KisBalanceClient where
  settings : KisSettings

namespace KisBalanceClient

def trId (env : KisEnv) : Text :=
  if env = .paper then text "VTTC8434R" else text "TTTC8434R"

/-- `fetch_balance` up to the GET. -/
def request (client : KisBalanceClient) (token : Option Text) : Except Exn KisRequest := do
  let token ← accessToken token (text "No KIS access token")
  let (cano, product) := parseAccountNumber client.settings.accountNumber
  return {
    url := client.settings.host ++ text "/uapi/domestic-stock/v1/inquire-balance"
    fields := [
      (text "CANO", cano),
      (text "ACNT_PRDT_CD", product),
      (text "AFHR_FLPR_YN", text "N"),
      (text "OFL_YN", text "N"),
      (text "INQR_DVSN", text "02"),
      (text "UNPR_DVSN", text "01"),
      (text "FUND_STTL_ICLD_YN", text "N"),
      (text "FNCG_AMT_AUTO_RDMT_YN", text "N"),
      (text "PRCS_DVSN", text "00"),
      (text "CTX_AREA_FK100", []),
      (text "CTX_AREA_NK100", [])]
    headers := client.settings.headers token (trId client.settings.env) }

def readHolding (raw : Json) : Except Exn HoldingItem := do
  return {
    symbol := ← raw.index (text "pdno")
    name := ← raw.index (text "prdt_name")
    quantity := ← Json.toInt (← raw.index (text "hldg_qty"))
    avgPrice := ← Json.toFloat (← raw.index (text "pchs_avg_pric"))
    currentPrice := ← Json.toInt (← raw.index (text "prpr"))
    evalAmount := ← Json.toInt (← raw.index (text "evlu_amt"))
    profitLoss := ← Json.toInt (← raw.index (text "evlu_pfls_amt"))
    profitLossPct := ← Json.toFloat (← raw.index (text "evlu_pfls_rt")) }

/-- `_parse_holdings`: a malformed holding is skipped. Its log record reads the symbol
once more, which raises where the holding is no object. -/
def parseHoldings (rows : List Json) : Except Exn (List HoldingItem) :=
  List.reduceOption <$> rows.mapM fun raw =>
    tryExcept (some <$> readHolding raw) [.keyError, .valueError, .typeError] fun _ =>
      (fun _ => none) <$> raw.dictGet (text "pdno")

def parseSummary (raw : Json) (holdings : List HoldingItem) : Except Exn BalanceResult := do
  return {
    cash := ← Json.toInt (← raw.index (text "dnca_tot_amt"))
    evalTotal := ← Json.toInt (← raw.index (text "tot_evlu_amt"))
    profitLoss := ← Json.toInt (← raw.index (text "evlu_pfls_amt_smtl"))
    profitLossPct := ← Json.toFloat (← raw.index (text "tot_evlu_pfls_rt"))
    holdings := holdings }

/-- `v[0]`. -/
def firstItem : Json → Except Exn Json
  | .arr (v :: _) => .ok v
  | .arr [] => raise .indexError
  | .obj _ => raise .keyError
  | .str (c :: _) => .ok (.str [c])
  | .str [] => raise .indexError
  | _ => raise .typeError

/-- `_parse_response`. -/
def parseResponse (resp : HttpResponse) : Except Exn BalanceResult := do
  if resp.statusCode = 401 ∨ resp.statusCode = 403 then
    raise kisAuthError (text "KIS balance rejected at auth layer" ++ httpSuffix resp.statusCode)
  else if 400 ≤ resp.statusCode then
    raise kisUpstreamError (text "KIS balance returned HTTP " ++ natText resp.statusCode)
  else
    let payload ← tryExcept resp.json [.valueError] fun _ =>
      raise kisUpstreamError
        (text "KIS balance returned non-JSON response" ++ httpSuffix resp.statusCode)
    let output1 := Json.orElse (← payload.dictGet (text "output1")) (.arr [])
    let output2 := Json.orElse (← payload.dictGet (text "output2")) (.arr [])
    if !output2.truthy then
      raise kisUpstreamError (text "Missing output2 in KIS balance response")
    else
      let holdings ← parseHoldings (← output1.iterate)
      parseSummary (← firstItem output2) holdings

/-- `fetch_balance` from the answer to its GET on. -/
def settle (sent : Except Exn HttpResponse) : Except Exn BalanceResult := do
  let resp ←
    translateSend (text "KIS balance") (text "KIS balance GET timed out after 10.0s") sent
  parseResponse resp

end KisBalanceClient

/-! ### When an order leaves -/

theorem accessToken_isOk_iff (token : Option Text) (message : Text) :
    (accessToken token message).isOk = true ↔ ∃ t, token = some t ∧ t ≠ [] := by
  rcases token with _ | (_ | ⟨c, cs⟩)
  · exact iff_of_false nofun nofun
  · refine iff_of_false nofun ?_
    rintro ⟨t, h, ht⟩
    exact ht (Option.some.inj h).symm
  · exact iff_of_true rfl ⟨_, rfl, nofun⟩

theorem KisOrderClient.trIdFor_isOk_iff (env : KisEnv) (action : Action) :
    (trIdFor env action).isOk = true ↔ action ≠ .hold := by
  cases env <;> cases action <;> simp [trIdFor, raise, Except.isOk, Except.toBool]

/-- The order passes the checks of `place_order`. -/
def PlaceOrder.Placeable (order : PlaceOrder) : Prop :=
  order.action ≠ .hold ∧ 0 < order.quantity ∧ (order.orderType = .limit → 0 < order.price)

instance (order : PlaceOrder) : Decidable order.Placeable :=
  inferInstanceAs (Decidable (_ ∧ _ ∧ _))

/-- The POST leaves exactly when the order is placeable and there is an access token. -/
theorem KisOrderClient.request_isOk_iff (client : KisOrderClient) (token : Option Text)
    (order : PlaceOrder) :
    (client.request token order).isOk = true ↔
      order.Placeable ∧ ∃ t, token = some t ∧ t ≠ [] := by
  simp only [request, PlaceOrder.Placeable]
  by_cases ha : order.action = .hold
  · rw [if_pos ha]
    exact iff_of_false nofun fun h => h.1.1 ha
  rw [if_neg ha]
  by_cases hq : order.quantity ≤ 0
  · rw [if_pos hq]
    exact iff_of_false nofun fun h => absurd h.1.2.1 (not_lt.mpr hq)
  rw [if_neg hq]
  by_cases hp : order.orderType = .limit ∧ order.price ≤ 0
  · rw [if_pos hp]
    exact iff_of_false nofun fun h => absurd (h.1.2.2 hp.1) (not_lt.mpr hp.2)
  rw [if_neg hp]
  have hlimit : order.orderType = .limit → 0 < order.price :=
    fun h => not_le.mp fun hle => hp ⟨h, hle⟩
  have htr := (trIdFor_isOk_iff client.settings.env order.action).mpr ha
  rw [← accessToken_isOk_iff token (text "place_order requires a valid access_token")]
  cases accessToken token (text "place_order requires a valid access_token") with
  | error e => exact iff_of_false nofun fun h => Bool.noConfusion h.2
  | ok t =>
      refine iff_of_true ?_ ⟨⟨ha, not_le.mp hq, hlimit⟩, rfl⟩
      cases h : trIdFor client.settings.env order.action with
      | error e => rw [h] at htr; cases htr
      | ok trId => rfl

end NexusBackend
