import NexusBackend.Core.Security
import NexusBackend.Kis.Account
import NexusBackend.Library.Transition

/-!
The routes under `/v1` as a machine that takes requests and the answers of the brokerage.

`GET /balance` and `POST /order` await the brokerage once, and any step may come before
the answer. Every other route is one step: its dependency `get_current_user`, where it has
one, and a page that its repositories fill in. The body of an order is what the validation
of the framework made of it. The problem details leave out the path, the request id and
the list of field errors.
-/
namespace NexusBackend

open Python Transition

/-! ### Requests and responses -/

/-- An order body that passed validation. -/
structure OrderRequestDto where
  symbol : Text
  action : Action
  quantity : Int
  orderType : OrderType := .market
  price : Int := 0
  action_side : action ≠ .hold
  quantity_pos : 0 < quantity
  price_nonneg : 0 ≤ price

inductive Endpoint
  | health
  | readyz
  | me
  | snapshot
  | securities
  | securityRelations
  | security
  | ticksVolume
  | ticksTape
  | ticksSnapshot
  | ticksRecent
  | metricsDecisions
  | metricsBlocked
  | auditRecent
  | alarms
  | balance
  | order (body : Option OrderRequestDto)

/-- The route depends on `get_current_user`. -/
def Endpoint.requiresUser : Endpoint → Bool
  | health | readyz | balance | order _ => false
  | _ => true

structure OrderResponseDto where
  orderId : Text
  symbol : Text
  action : Action
  quantity : Int
  status : Text
  message : Text
  ts : Text

structure HoldingDto where
  symbol : Text
  name : Text
  quantity : Int
  avgPrice : Python.Float
  currentPrice : Int
  evalAmount : Int
  profitLoss : Int
  profitLossPct : Python.Float

structure BalanceSummaryDto where
  cash : Int
  evalTotal : Int
  profitLoss : Int
  profitLossPct : Python.Float

structure BalanceDto where
  summary : BalanceSummaryDto
  holdings : List HoldingDto
  ts : Text

structure ProblemDetail where
  type : Text := text "about:blank"
  title : Text
  status : Nat
  detail : Text

inductive Response
  | order (dto : OrderResponseDto)
  | balance (dto : BalanceDto)
  | problem (problem : ProblemDetail) (challenge : Bool)
  | page (body : Text)

def problemTypeValidation : Text := text "https://nexus-os.local/problems/validation-error"

def problemTypeInternal : Text := text "https://nexus-os.local/problems/internal-error"

def problemTypeUpstream : Text := text "https://nexus-os.local/problems/upstream-error"

/-- `unhandled_exception_handler`. -/
def internalError : Response :=
  .problem { type := problemTypeInternal, title := text "Internal Server Error", status := 500,
             detail := text "An unexpected error occurred. The incident has been logged." } false

/-- `validation_exception_handler`. -/
def validationError : Response :=
  .problem { type := problemTypeValidation, title := text "Validation Error", status := 422,
             detail := text "One or more request fields failed validation" } false

/-- The reason phrases of the two statuses that the check of the user answers with. -/
def phrase (status : Nat) : Text :=
  if status = 401 then text "Unauthorized"
  else if status = 500 then text "Internal Server Error"
  else text "Error"

def authFailureResponse : AuthFailure → Response
  | .http status detail challenge =>
      .problem { title := phrase status, status := status, detail := detail } challenge
  | .raised _ => internalError

/-! ### What the two brokerage routes answer -/

def isoMilliseconds (now : UtcTime) : Text := now.toDateTime.isoformatMilliseconds

def OrderRequestDto.toPlaceOrder (body : OrderRequestDto) : PlaceOrder where
  symbol := body.symbol
  action := body.action
  quantity := body.quantity
  orderType := body.orderType
  price := body.price

def OrderRequestDto.respond (body : OrderRequestDto) (orderId status message : Text)
    (now : UtcTime) : Response :=
  .order { orderId := orderId, symbol := body.symbol, action := body.action,
           quantity := body.quantity, status := status, message := message,
           ts := isoMilliseconds now }

/-- `post_order` without a client; `mockId` is the synthetic order number. -/
def mockOrderResponse (body : OrderRequestDto) (mockId : Text) (now : UtcTime) : Response :=
  body.respond mockId (text "accepted") (text "Mock mode: order accepted (no KIS credentials)") now

def brokerageErrors : List ExnKind := [kisAuthError, kisUpstreamError]

/-- `post_order` once `place_order` is done. -/
def orderResponse (body : OrderRequestDto) (mockId : Text) (now : UtcTime)
    (outcome : Except Exn OrderResult) : Response :=
  match outcome with
  | .ok result =>
      body.respond ((result.orderId.filter (· ≠ [])).getD mockId)
        (if result.success then text "accepted" else text "rejected") result.message now
  | .error e =>
      if e.isInstance [.valueError] then
        .problem { type := problemTypeValidation, title := text "Invalid order parameters",
                   status := 422, detail := e.message } false
      else if e.isInstance brokerageErrors then
        .problem { type := problemTypeUpstream, title := text "KIS order unavailable",
                   status := 503, detail := e.message } false
      else internalError

/-- `get_balance` without a client. -/
def mockBalanceResponse (now : UtcTime) : Response :=
  .balance { summary := { cash := 10000000, evalTotal := 10000000, profitLoss := 0,
                          profitLossPct := .finite 0 },
             holdings := [], ts := isoMilliseconds now }

/-- A holding as the response model takes it: symbol and name are strings. -/
def HoldingItem.toDto? (item : HoldingItem) : Option HoldingDto :=
  match item.symbol, item.name with
  | .str symbol, .str name =>
      some { symbol := symbol, name := name, quantity := item.quantity,
             avgPrice := item.avgPrice, currentPrice := item.currentPrice,
             evalAmount := item.evalAmount, profitLoss := item.profitLoss,
             profitLossPct := item.profitLossPct }
  | _, _ => none

/-- `get_balance` once `fetch_balance` is done. -/
def balanceResponse (now : UtcTime) (outcome : Except Exn BalanceResult) : Response :=
  match outcome with
  | .ok result =>
      match result.holdings.mapM HoldingItem.toDto? with
      | some holdings =>
          .balance { summary := { cash := result.cash, evalTotal := result.evalTotal,
                                  profitLoss := result.profitLoss,
                                  profitLossPct := result.profitLossPct },
                     holdings := holdings, ts := isoMilliseconds now }
      | none => internalError
  | .error e =>
      if e.isInstance brokerageErrors then
        .problem { type := problemTypeUpstream, title := text "KIS balance unavailable",
                   status := 503, detail := e.message } false
      else internalError

/-! ### The machine -/

/-- The application: its settings and the two clients of `app.state`. -/
structure Api where
  printing : Json.Printing
  auth : AuthSettings
  orderClient : Option KisOrderClient
  balanceClient : Option KisBalanceClient

/-- The clients as the lifespan wires them, once it knows whether KIS came up. -/
def Api.wire (printing : Json.Printing) (auth : AuthSettings) (kis : KisSettings)
    (kisUp : Bool) : Api where
  printing := printing
  auth := auth
  orderClient := if kisUp then some ⟨kis⟩ else none
  balanceClient := if kisUp then some ⟨kis⟩ else none

/-- A request, with what the outside holds while it is handled up to its first answer: the
token check's world, the access token of the KIS client, the clock, a synthetic order
number and the page of its route. -/
structure Arrival where
  endpoint : Endpoint
  creds : Option Credentials
  auth : AuthWorld
  accessToken : Option Text
  now : UtcTime
  mockId : Text
  page : Text

/-- A request that awaits the brokerage. -/
inductive Pending
  | order (body : OrderRequestDto)
  | balance

/-- A call of a method of a brokerage client. -/
inductive AccountCall
  | placeOrder (order : PlaceOrder)
  | fetchBalance

/-- What happens on behalf of a request, which is named by its number. -/
inductive ApiEvent
  | accepted (request : Nat) (principal : Principal)
  | called (request : Nat) (call : AccountCall)
  | orderSent (request : Nat) (sent : KisRequest)
  | balanceSent (request : Nat) (sent : KisRequest)
  | answered (request : Nat)
  | responded (request : Nat) (response : Response)

/-- Requests are numbered as they arrive. -/
structure ApiState where
  cache : JwksCache := {}
  started : Nat := 0
  pending : Nat → Option Pending := fun _ => none

inductive ApiLabel
  | request (arrival : Arrival)
  | answer (request : Nat) (sent : Except Exn HttpResponse) (now : UtcTime) (mockId : Text)

/-- What a request comes to before it first awaits the brokerage. -/
structure Turn where
  cache : JwksCache
  pending : Option Pending := none
  events : List ApiEvent

namespace Api

variable (api : Api)

/-- `post_order` up to its await. -/
def postOrder (id : Nat) (arrival : Arrival) (cache : JwksCache) (body : OrderRequestDto) :
    Turn :=
  match api.orderClient with
  | none =>
      { cache, events := [.responded id (mockOrderResponse body arrival.mockId arrival.now)] }
  | some client =>
      let called := .called id (.placeOrder body.toPlaceOrder)
      match client.request arrival.accessToken body.toPlaceOrder with
      | .error e =>
          { cache, events :=
              [called, .responded id (orderResponse body arrival.mockId arrival.now (.error e))] }
      | .ok sent => { cache, pending := some (.order body), events := [called, .orderSent id sent] }

/-- `get_balance` up to its await. -/
def getBalance (id : Nat) (arrival : Arrival) (cache : JwksCache) : Turn :=
  match api.balanceClient with
  | none => { cache, events := [.responded id (mockBalanceResponse arrival.now)] }
  | some client =>
      match client.request arrival.accessToken with
      | .error e =>
          { cache, events := [.called id .fetchBalance,
              .responded id (balanceResponse arrival.now (.error e))] }
      | .ok sent =>
          { cache, pending := some .balance,
            events := [.called id .fetchBalance, .balanceSent id sent] }

/-- A route that fills in a page, behind `get_current_user` where it depends on it. -/
def getPage (id : Nat) (arrival : Arrival) (cache : JwksCache) : Turn :=
  if arrival.endpoint.requiresUser then
    match getCurrentUser api.printing api.auth arrival.auth cache arrival.creds with
    | (.ok principal, cache) =>
        { cache, events := [.accepted id principal, .responded id (.page arrival.page)] }
    | (.error failure, cache) =>
        { cache, events := [.responded id (authFailureResponse failure)] }
  else { cache, events := [.responded id (.page arrival.page)] }

def handle (id : Nat) (arrival : Arrival) (cache : JwksCache) : Turn :=
  match arrival.endpoint with
  | .order none => { cache, events := [.responded id validationError] }
  | .order (some body) => api.postOrder id arrival cache body
  | .balance => api.getBalance id arrival cache
  | _ => api.getPage id arrival cache

/-- A pending request once the brokerage answers. -/
def resume (sent : Except Exn HttpResponse) (now : UtcTime) (mockId : Text) :
    Pending → Response
  | .order body => orderResponse body mockId now (KisOrderClient.settle api.printing sent)
  | .balance => balanceResponse now (KisBalanceClient.settle sent)

def step (s : ApiState) : ApiLabel → Option (ApiState × List ApiEvent)
  | .request arrival =>
      let turn := api.handle s.started arrival s.cache
      some (⟨turn.cache, s.started + 1, Function.update s.pending s.started turn.pending⟩,
        turn.events)
  | .answer id sent now mockId =>
      (s.pending id).map fun pending =>
        ({ s with pending := Function.update s.pending id none },
          [.answered id, .responded id (api.resume sent now mockId pending)])

def machine : Machine ApiState ApiLabel ApiEvent := ⟨api.step⟩

/-! ### What one request can do -/

/-- The request calls a method of a brokerage client. -/
def CallsAccount : Endpoint → Prop
  | .balance => api.balanceClient.isSome = true
  | .order body => body.isSome = true ∧ api.orderClient.isSome = true
  | _ => False

/-- The request sends an order: its body is valid, a client is wired and holds an access
token, and a limit order names a price. -/
def SubmitsOrder (arrival : Arrival) : Prop :=
  api.orderClient.isSome = true ∧
    (∃ token, arrival.accessToken = some token ∧ token ≠ []) ∧
    ∃ body, arrival.endpoint = .order (some body) ∧ (body.orderType = .limit → 0 < body.price)

end Api
end NexusBackend
