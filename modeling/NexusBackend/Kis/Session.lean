import NexusBackend.Kis.Account
import NexusBackend.Kis.Frames
import NexusBackend.Library.Transition

/-!
The session of `KisClient`: its state, its token and its WebSocket, and the sockets of the
process.

A method is cut where it awaits: first what it asks for, or how it ends before that, then
what it makes of the answer. An instant is its microseconds since the start of year 1, UTC,
and the clock keeps a minute away from the end of year 9999. The operations follow one
another. A socket is open from the handshake until the client closes it, whatever the peer
does and whatever `ws.close()` raises; cancellation of an operation is not covered.
-/
namespace NexusBackend

open Python Transition

inductive KisConnectionState
  | disconnected
  | authenticating
  | authenticated
  | connecting
  | connected
  | reconnecting
  | failed
deriving DecidableEq

def KisConnectionState.value : KisConnectionState → Text
  | disconnected => text "disconnected"
  | authenticating => text "authenticating"
  | authenticated => text "authenticated"
  | connecting => text "connecting"
  | connected => text "connected"
  | reconnecting => text "reconnecting"
  | failed => text "failed"

/-- A response with `resp.text`. -/
structure TextResponse extends HttpResponse where
  body : Text

def KisSettings.wsUrl (settings : KisSettings) : Text :=
  if settings.env = .paper then text "ws://ops.koreainvestment.com:31000"
  else text "ws://ops.koreainvestment.com:21000"

/-- The fields of the client; the token is what the response holds, `None` being null. -/
structure KisClient where
  settings : KisSettings
  state : KisConnectionState := .disconnected
  accessToken : Json := .null
  tokenType : Json := .str (text "Bearer")
  tokenExpiresAt : Option Int := none
  approvalKey : Option Text := none
  ws : Option Nat := none

namespace KisClient

def isNone : Json → Bool
  | .null => true
  | _ => false

def isTokenValid (c : KisClient) (now : Int) : Bool :=
  match c.tokenExpiresAt with
  | some expires => !isNone c.accessToken && decide (now + 60000000 < expires)
  | none => false

def isWsOpen (c : KisClient) : Bool := c.ws.isSome && c.state = .connected

/-- How far an operation came: it ended, or it awaits an answer. -/
inductive Progress (α : Type)
  | ended (result : Except Exn Unit) (client : KisClient)
  | waiting (request : α) (client : KisClient)

/-! ### Responses -/

/-- The `TypeError` of `v[key]`, or the key that is missing. -/
def subscriptMessage (v : Json) (key : Text) : Text :=
  match v with
  | .null => text "'NoneType' object is not subscriptable"
  | .bool _ => text "'bool' object is not subscriptable"
  | .int _ => text "'int' object is not subscriptable"
  | .float _ => text "'float' object is not subscriptable"
  | .str _ => text "string indices must be integers, not 'str'"
  | .arr _ => text "list indices must be integers or slices, not str"
  | .obj _ => text "'" ++ key ++ text "'"

def subscript (v : Json) (key : Text) : Except Exn Json :=
  (v.index key).mapError fun e => ⟨e.kind, subscriptMessage v key⟩

/-- `data.get(first) or data.get(second) or "?"`. -/
def firstOf (pairs : List (Text × Json)) (first second : Text) : Json :=
  Json.orElse (Json.get? pairs first)
    (Json.orElse (Json.get? pairs second) (.str (text "?")))

/-- The summary of an error envelope, where the body is one. -/
def envelopeSummary (pr : Json.Printing) (resp : TextResponse) : Except Exn (Option Text) := do
  match ← resp.json with
  | .obj pairs =>
      let code ← (firstOf pairs (text "error_code") (text "code")).toStr pr
      let desc ← (firstOf pairs (text "error_description") (text "message")).toStr pr
      return some (text "code=" ++ code ++ text " desc=" ++ desc)
  | _ => return none

/-- `_safe_json_summary`. -/
def safeJsonSummary (pr : Json.Printing) (resp : TextResponse) : Except Exn Text := do
  let summary ← tryExcept (envelopeSummary pr resp) [.valueError] fun _ => .ok none
  return summary.getD (if resp.body = [] then text "<empty body>" else resp.body.take 200)

/-- An error status, with the summary of the response in its message. -/
def refuse {α : Type} (pr : Json.Printing) (kind : ExnKind) (before after : Text)
    (resp : TextResponse) : Except Exn α := do
  let summary ← safeJsonSummary pr resp
  raise kind (before ++ natText resp.statusCode ++ after ++ summary)

/-- The handlers around a POST. -/
def postError (what : Text) (e : Exn) : Exn :=
  if e.isInstance [httpTimeout] then ⟨kisUpstreamError, what ++ text " timed out after 10.0s"⟩
  else if e.isInstance [httpError] then
    ⟨kisUpstreamError, what ++ text " network failure: " ++ e.message⟩
  else e

/-- `_mask_token` of a value that may not be a string. -/
def maskToken (pr : Json.Printing) : Json → Except Exn Text
  | .str s => .ok (if s.length ≤ 12 then text "***"
      else s.take 6 ++ text "..." ++ s.drop (s.length - 4))
  | .arr items =>
      if items.length ≤ 12 then .ok (text "***")
      else do
        let first ← (Json.arr (items.take 6)).toStr pr
        let last ← (Json.arr (items.drop (items.length - 4))).toStr pr
        return first ++ text "..." ++ last
  | .obj pairs => if pairs.length ≤ 12 then .ok (text "***") else raise .typeError
  | _ => raise .typeError

/-! ### authenticate -/

/-- The seconds of a number, where the type test and the sign test let it pass. -/
def positiveSeconds? : Json → Except Exn (Option Python.Float)
  | .bool b => .ok (if b then some (.finite 1) else none)
  | .int n => if 0 < n then some <$> floatOfInt n else .ok none
  | .float (.finite q) => .ok (if 0 < q then some (.finite q) else none)
  | .float (.inf negative) => .ok (if negative then none else some (.inf false))
  | _ => .ok none

/-- `timedelta(seconds=x)` of a positive float: the fraction of a second is scaled as a
float and rounded half to even. -/
def secondsMicros : Python.Float → Except Exn Int
  | .finite q =>
      match Python.Float.ofRat ((q - ⌊q⌋) * 1000000) with
      | .finite us => .ok (⌊q⌋ * 1000000 + roundHalfEven us)
      | _ => raise .overflowError
  | .inf _ => raise .overflowError
  | .nan => raise .valueError

/-- The number of microseconds from the start of year 1 to the end of year 9999. -/
def calendarMicros : Int := 3652059 * dayMicros

/-- `_compute_expiry`. The parameter is `strptime` of a wall-clock text as KST, in UTC. -/
def computeExpiry (parseWall : Text → Except Exn Int) (payload : Json) (now : Int) :
    Except Exn (Option Int) := do
  let expiresIn ← positiveSeconds? (← getWithDefault payload (text "expires_in") .null)
  match expiresIn with
  | some seconds =>
      let expires := now + (← secondsMicros seconds)
      if expires < calendarMicros then return some expires else raise .overflowError
  | none =>
      match ← getWithDefault payload (text "access_token_token_expired") .null with
      | .str wall => tryExcept (some <$> parseWall wall) [.valueError] fun _ => .ok none
      | _ => return none

/-- `authenticate` up to its POST. -/
def authenticate (c : KisClient) (force : Bool) (now : Int) : Progress KisRequest :=
  if !force && c.isTokenValid now then .ended (.ok ()) c
  else if c.settings.appKey = [] ∨ c.settings.appSecret = [] then
    .ended (raise kisAuthError (text "KIS_APP_KEY / KIS_APP_SECRET not configured"))
      { c with state := .failed }
  else
    .waiting {
      url := c.settings.host ++ text "/oauth2/tokenP"
      fields := [
        (text "grant_type", text "client_credentials"),
        (text "appkey", c.settings.appKey),
        (text "appsecret", c.settings.appSecret)]
      headers := [] } { c with state := .authenticating }

structure TokenFields where
  payload : Json
  accessToken : Json
  tokenType : Json

def readToken (resp : TextResponse) : Except Exn TokenFields := do
  let payload ← resp.json
  let accessToken ← subscript payload (text "access_token")
  let tokenType ← getWithDefault payload (text "token_type") (.str (text "Bearer"))
  return { payload, accessToken, tokenType }

/-- `authenticate` from the fields of the response on. -/
def takeToken (pr : Json.Printing) (parseWall : Text → Except Exn Int) (c : KisClient)
    (fields : TokenFields) (now : Int) : Except Exn Unit × KisClient :=
  match computeExpiry parseWall fields.payload now with
  | .error e => (.error e, c)
  | .ok expires =>
      ((fun _ => ()) <$> maskToken pr fields.accessToken,
        { c with
          accessToken := fields.accessToken
          tokenType := fields.tokenType
          tokenExpiresAt := expires
          state := .authenticated })

/-- `authenticate` from the answer to its POST on. -/
def authenticated (pr : Json.Printing) (parseWall : Text → Except Exn Int) (c : KisClient)
    (answer : Except Exn TextResponse) (now : Int) : Except Exn Unit × KisClient :=
  match answer with
  | .error e =>
      (.error (postError (text "KIS OAuth") e),
        if e.isInstance [httpTimeout, httpError] then { c with state := .failed } else c)
  | .ok resp =>
      if resp.statusCode = 401 ∨ resp.statusCode = 403 then
        (refuse pr kisAuthError (text "KIS rejected credentials (HTTP ") (text "): ") resp,
          { c with state := .failed })
      else if 400 ≤ resp.statusCode then
        (refuse pr kisUpstreamError (text "KIS OAuth returned HTTP ") (text ": ") resp,
          { c with state := .failed })
      else
        match readToken resp with
        | .error e =>
            if e.isInstance [.valueError, .keyError, .typeError] then
              (raise kisAuthError (text "KIS OAuth response malformed: " ++ e.message),
                { c with state := .failed })
            else (.error e, c)
        | .ok fields => c.takeToken pr parseWall fields now

/-! ### connect, subscribe and close -/

/-- `connect` up to the POST for the approval key. -/
def connect (c : KisClient) (now : Int) : Progress KisRequest :=
  if !c.isTokenValid now then
    .ended (raise kisAuthError
      (text "connect() requires a valid token — call authenticate() first")) c
  else if c.state = .connected ∧ c.ws ≠ none then .ended (.ok ()) c
  else
    .waiting {
      url := c.settings.host ++ text "/oauth2/Approval"
      fields := [
        (text "grant_type", text "client_credentials"),
        (text "appkey", c.settings.appKey),
        (text "secretkey", c.settings.appSecret)]
      headers := [] } { c with state := .connecting }

/-- `_issue_approval_key` from the answer to its POST on. -/
def issueApprovalKey (pr : Json.Printing) (answer : Except Exn TextResponse) :
    Except Exn Text := do
  let resp ← answer.mapError (postError (text "KIS Approval"))
  if resp.statusCode = 401 ∨ resp.statusCode = 403 then
    refuse pr kisAuthError (text "KIS rejected approval_key request (HTTP ") (text "): ") resp
  else if 400 ≤ resp.statusCode then
    refuse pr kisUpstreamError (text "KIS Approval returned HTTP ") (text ": ") resp
  else
    let key ← tryExcept (do subscript (← resp.json) (text "approval_key"))
      [.valueError, .keyError, .typeError] fun e =>
        raise kisAuthError (text "KIS Approval response malformed: " ++ e.message)
    match key with
    | .str (a :: as) => return a :: as
    | _ => raise kisAuthError (text "KIS Approval returned empty approval_key")

/-- `connect` between the answer to its POST and the opening of the socket. -/
def approved (pr : Json.Printing) (c : KisClient) (answer : Except Exn TextResponse) :
    Progress Text :=
  match issueApprovalKey pr answer with
  | .error e =>
      .ended (.error e)
        (if e.isInstance [kisAuthError, kisUpstreamError] then { c with state := .failed } else c)
  | .ok key => .waiting key c

/-- The handlers around the opening of the socket. -/
def openError (e : Exn) : Exn :=
  if e.isInstance [.timeoutError] then
    ⟨kisUpstreamError, text "KIS WebSocket open timed out after 10.0s"⟩
  else if e.isInstance [.osError] then
    ⟨kisUpstreamError, text "KIS WebSocket open failed: " ++ e.message⟩
  else ⟨kisUpstreamError, text "KIS WebSocket handshake failed: " ++ e.message⟩

/-- `connect` from the opening of the socket on. -/
def opened (c : KisClient) (key : Text) : Except Exn Nat → Except Exn Unit × KisClient
  | .error e => (.error (openError e), { c with state := .failed })
  | .ok ws =>
      (.ok (), { c with approvalKey := some key, ws := some ws, state := .connected })

/-- `_build_subscribe_frame`. -/
def buildSubscribeFrame (approvalKey trId trKey : Text) : Text :=
  Json.dumpsText (.obj [
    (text "header", .obj [
      (text "approval_key", .str approvalKey),
      (text "custtype", .str (text "P")),
      (text "tr_type", .str (text "1")),
      (text "content-type", .str (text "utf-8"))]),
    (text "body", .obj [
      (text "input", .obj [(text "tr_id", .str trId), (text "tr_key", .str trKey)])])])

/-- The frames of a `subscribe`, up to the first that is refused. Each symbol comes with
what its `send` does. -/
def sendFrames (approvalKey trId : Text) :
    List (Text × Except Exn Unit) → Except Exn Unit × List Text
  | [] => (.ok (), [])
  | (symbol, .error e) :: _ => (.error e, [buildSubscribeFrame approvalKey trId symbol])
  | (symbol, .ok ()) :: rest =>
      let (result, frames) := sendFrames approvalKey trId rest
      (result, buildSubscribeFrame approvalKey trId symbol :: frames)

def subscribe (c : KisClient) (trId : Text) (symbols : List (Text × Except Exn Unit)) :
    Except Exn Unit × List Text :=
  if c.state ≠ .connected ∨ c.ws = none then
    (raise .runtimeError
      (text "subscribe() requires CONNECTED state (have " ++ c.state.value ++ text ")"), [])
  else
    match c.approvalKey with
    | none =>
        (raise kisAuthError
          (text "subscribe() requires approval_key — call connect() first"), [])
    | some key => sendFrames key trId symbols

/-- `close`; the error of the socket's own `close` is logged. -/
def close (c : KisClient) : KisClient := { c with ws := none, state := .disconnected }

end KisClient

/-! ### Sequences of operations -/

/-- An operation with all that the clock and the upstream do during it. -/
inductive KisOperation
  | authenticate (force : Bool) (now : Int) (answer : Except Exn TextResponse) (answered : Int)
  | connect (now : Int) (approval : Except Exn TextResponse) (opening : Except Exn Unit)
  | subscribe (trId : Text) (symbols : List (Text × Except Exn Unit))
  | close (closing : Except Exn Unit)

/-- The client with the sockets of the process: how many it opened, each numbered in
order, and which of them it has not closed. -/
structure KisSystem where
  client : KisClient
  opened : Nat := 0
  unclosed : List Nat := []

namespace KisSystem

def withClient (s : KisSystem) (c : KisClient) : KisSystem := { s with client := c }

@[simp] theorem withClient_client (s : KisSystem) (c : KisClient) :
    (s.withClient c).client = c := rfl

@[simp] theorem withClient_unclosed (s : KisSystem) (c : KisClient) :
    (s.withClient c).unclosed = s.unclosed := rfl

def authenticate (pr : Json.Printing) (parseWall : Text → Except Exn Int) (s : KisSystem)
    (force : Bool) (now : Int) (answer : Except Exn TextResponse) (answered : Int) :
    KisSystem × Except Exn Unit :=
  match s.client.authenticate force now with
  | .ended result c => (s.withClient c, result)
  | .waiting _ c =>
      let (result, c) := c.authenticated pr parseWall answer answered
      (s.withClient c, result)

/-- The socket that a successful handshake opens. -/
def openSocket (s : KisSystem) (c : KisClient) (key : Text) : KisSystem × Except Exn Unit :=
  let (result, c) := c.opened key (.ok s.opened)
  ({ client := c, opened := s.opened + 1, unclosed := s.unclosed ++ [s.opened] }, result)

def connect (pr : Json.Printing) (s : KisSystem) (now : Int)
    (approval : Except Exn TextResponse) (opening : Except Exn Unit) :
    KisSystem × Except Exn Unit :=
  match s.client.connect now with
  | .ended result c => (s.withClient c, result)
  | .waiting _ c =>
      match c.approved pr approval with
      | .ended result c => (s.withClient c, result)
      | .waiting key c =>
          match opening with
          | .error e =>
              let (result, c) := c.opened key (.error e)
              (s.withClient c, result)
          | .ok () => s.openSocket c key

def close (s : KisSystem) : KisSystem × Except Exn Unit :=
  ({ s with client := s.client.close
            unclosed := s.unclosed.filter fun id => s.client.ws ≠ some id }, .ok ())

def apply (pr : Json.Printing) (parseWall : Text → Except Exn Int) (s : KisSystem) :
    KisOperation → KisSystem × Except Exn Unit
  | .authenticate force now answer answered =>
      s.authenticate pr parseWall force now answer answered
  | .connect now approval opening => s.connect pr now approval opening
  | .subscribe trId symbols => (s, (s.client.subscribe trId symbols).1)
  | .close _ => s.close

/-- Every operation ends, and its event is what it returns or raises. -/
def machine (pr : Json.Printing) (parseWall : Text → Except Exn Int) :
    Machine KisSystem KisOperation (Except Exn Unit) where
  step s op := some ((s.apply pr parseWall op).1, [(s.apply pr parseWall op).2])

def start (settings : KisSettings) : KisSystem := { client := { settings } }

/-! ### The one socket -/

/-- At most one socket is open, it is the one the client holds, and `is_ws_open` says
whether there is one. -/
structure SoleSocket (s : KisSystem) : Prop where
  atMostOne : s.unclosed.length ≤ 1
  held : ∀ id ∈ s.unclosed, s.client.ws = some id
  isWsOpen_iff : s.client.isWsOpen = true ↔ s.unclosed ≠ []

/-- The socket the client holds is open. -/
def HoldsOpen (s : KisSystem) : Prop := ∀ id, s.client.ws = some id → id ∈ s.unclosed

/-- An `authenticate` that goes past its guard while the client holds a socket. -/
def Reauthenticates (s : KisSystem) : KisOperation → Prop
  | .authenticate force now _ _ =>
      s.client.ws ≠ none ∧ (force = true ∨ s.client.isTokenValid now = false)
  | _ => False

instance (s : KisSystem) : (op : KisOperation) → Decidable (s.Reauthenticates op)
  | .authenticate _ _ _ _ => inferInstanceAs (Decidable (_ ∧ _))
  | .connect _ _ _ => inferInstanceAs (Decidable False)
  | .subscribe _ _ => inferInstanceAs (Decidable False)
  | .close _ => inferInstanceAs (Decidable False)

/-! ### What an operation can do -/

end KisSystem

theorem KisClient.takeToken_frame (pr : Json.Printing) (parseWall : Text → Except Exn Int)
    (c : KisClient) (fields : TokenFields) (now : Int) (hstate : c.state = .authenticating) :
    (c.takeToken pr parseWall fields now).2.ws = c.ws ∧
      (c.takeToken pr parseWall fields now).2.approvalKey = c.approvalKey ∧
      (c.takeToken pr parseWall fields now).2.state ≠ .connected := by
  rw [takeToken]
  cases computeExpiry parseWall fields.payload now with
  | error e => exact ⟨rfl, rfl, hstate ▸ nofun⟩
  | ok expires => exact ⟨rfl, rfl, nofun⟩

/-- From the POST on, `authenticate` keeps the socket and its key and never ends connected. -/
theorem KisClient.authenticated_frame (pr : Json.Printing) (parseWall : Text → Except Exn Int)
    (c : KisClient) (answer : Except Exn TextResponse) (now : Int)
    (hstate : c.state = .authenticating) :
    (c.authenticated pr parseWall answer now).2.ws = c.ws ∧
      (c.authenticated pr parseWall answer now).2.approvalKey = c.approvalKey ∧
      (c.authenticated pr parseWall answer now).2.state ≠ .connected := by
  have hc : c.state ≠ .connected := hstate ▸ nofun
  cases answer with
  | error e =>
      rw [authenticated]
      split
      · exact ⟨rfl, rfl, nofun⟩
      · exact ⟨rfl, rfl, hc⟩
  | ok resp =>
      rw [authenticated]
      split_ifs
      · exact ⟨rfl, rfl, nofun⟩
      · exact ⟨rfl, rfl, nofun⟩
      · cases readToken resp with
        | ok fields => exact c.takeToken_frame pr parseWall fields now hstate
        | error e =>
            dsimp only
            split_ifs
            · exact ⟨rfl, rfl, nofun⟩
            · exact ⟨rfl, rfl, hc⟩

namespace KisSystem

variable (pr : Json.Printing) (parseWall : Text → Except Exn Int) (s : KisSystem)

/-- The client is another one that is not connected and holds the same socket. -/
def Unsettled (s' : KisSystem) : Prop :=
  ∃ c : KisClient, s' = s.withClient c ∧ c.ws = s.client.ws ∧ c.state ≠ .connected

theorem authenticate_skipped {force : Bool} {now : Int} (answer : Except Exn TextResponse)
    (answered : Int) (h : ¬(force = true ∨ s.client.isTokenValid now = false)) :
    (s.authenticate pr parseWall force now answer answered).1 = s := by
  have hskip : (!force && s.client.isTokenValid now) = true := by
    simpa [not_or] using h
  rw [KisSystem.authenticate, KisClient.authenticate, if_pos hskip]
  rfl

theorem authenticate_unsettled {force : Bool} {now : Int} (answer : Except Exn TextResponse)
    (answered : Int) (h : force = true ∨ s.client.isTokenValid now = false) :
    s.Unsettled (s.authenticate pr parseWall force now answer answered).1 := by
  have hgo : ¬(!force && s.client.isTokenValid now) = true := by
    cases h with
    | inl hf => simp [hf]
    | inr hv => simp [hv]
  rw [KisSystem.authenticate, KisClient.authenticate, if_neg hgo]
  by_cases hkey : s.client.settings.appKey = [] ∨ s.client.settings.appSecret = []
  · rw [if_pos hkey]
    exact ⟨_, rfl, rfl, nofun⟩
  · rw [if_neg hkey]
    have hframe := KisClient.authenticated_frame pr parseWall
      { s.client with state := .authenticating } answer answered rfl
    exact ⟨_, rfl, hframe.1, hframe.2.2⟩

/-- `connect` leaves everything as it is, or leaves a client that is not connected, or opens
a socket, which the client then holds. The last two only where it is not connected. -/
theorem connect_cases (now : Int) (approval : Except Exn TextResponse)
    (opening : Except Exn Unit) :
    (s.connect pr now approval opening).1 = s ∨
    ¬(s.client.state = .connected ∧ s.client.ws ≠ none) ∧
      (s.Unsettled (s.connect pr now approval opening).1 ∨
        ∃ c key, (s.connect pr now approval opening).1 = (s.openSocket c key).1) := by
  rw [KisSystem.connect, KisClient.connect]
  by_cases hvalid : (!s.client.isTokenValid now) = true
  · rw [if_pos hvalid]
    exact .inl rfl
  rw [if_neg hvalid]
  by_cases hheld : s.client.state = .connected ∧ s.client.ws ≠ none
  · rw [if_pos hheld]
    exact .inl rfl
  rw [if_neg hheld]
  refine .inr ⟨hheld, ?_⟩
  dsimp only [KisClient.approved]
  cases KisClient.issueApprovalKey pr approval with
  | error e =>
      refine .inl ⟨_, rfl, ?_⟩
      split_ifs
      · exact ⟨rfl, nofun⟩
      · exact ⟨rfl, nofun⟩
  | ok key =>
      cases opening with
      | error e => exact .inl ⟨_, rfl, rfl, nofun⟩
      | ok _ => exact .inr ⟨_, key, rfl⟩

/-! ### What each of these keeps -/

variable {s}

theorem start_sole (settings : KisSettings) : (start settings).SoleSocket where
  atMostOne := Nat.zero_le 1
  held := nofun
  isWsOpen_iff := iff_of_false nofun (absurd rfl)

theorem SoleSocket.unclosed_eq (h : s.SoleSocket) (hJ : s.HoldsOpen) :
    s.unclosed = s.client.ws.toList := by
  cases hws : s.client.ws with
  | none =>
      refine List.eq_nil_iff_forall_not_mem.mpr fun id hid => ?_
      rw [h.held id hid] at hws
      cases hws
  | some id =>
      have hmem := hJ id hws
      obtain ⟨a, ha⟩ := List.length_eq_one_iff.mp
        (Nat.le_antisymm h.atMostOne (List.length_pos_of_mem hmem))
      rw [ha] at hmem ⊢
      rw [List.mem_singleton.mp hmem]
      rfl

theorem SoleSocket.connected (h : s.SoleSocket) (hJ : s.HoldsOpen) (hws : s.client.ws ≠ none) :
    s.client.state = .connected := by
  have hne : s.unclosed ≠ [] := by
    rw [h.unclosed_eq hJ]
    simpa using hws
  have hopen := h.isWsOpen_iff.mpr hne
  simp only [KisClient.isWsOpen, Bool.and_eq_true, decide_eq_true_eq] at hopen
  exact hopen.2

theorem Unsettled.holdsOpen {s' : KisSystem} (h : s.Unsettled s') (hJ : s.HoldsOpen) :
    s'.HoldsOpen := by
  obtain ⟨c, rfl, hws, -⟩ := h
  intro id hid
  exact hJ id (hws ▸ hid)

/-- A client that is no longer connected is in order exactly when it holds no socket. -/
theorem Unsettled.sole_iff {s' : KisSystem} (h : s.Unsettled s') (hJ : s.HoldsOpen)
    (hP : s.SoleSocket) : s'.SoleSocket ↔ s.client.ws = none := by
  obtain ⟨c, rfl, hws, hstate⟩ := h
  have hclosed : ¬c.isWsOpen = true := by simp [KisClient.isWsOpen, hstate]
  constructor
  · intro h'
    have hnil : s.unclosed = [] := not_not.mp fun hne => hclosed (h'.isWsOpen_iff.mpr hne)
    rw [hP.unclosed_eq hJ] at hnil
    simpa using hnil
  · intro hnone
    have hnil : s.unclosed = [] := by rw [hP.unclosed_eq hJ, hnone]; rfl
    refine ⟨?_, ?_, ?_⟩
    · rw [withClient_unclosed, hnil]
      exact Nat.zero_le 1
    · rw [withClient_unclosed, hnil]
      exact nofun
    · exact iff_of_false hclosed (not_not.mpr hnil)

theorem openSocket_holdsOpen (c : KisClient) (key : Text) : (s.openSocket c key).1.HoldsOpen := by
  intro id hid
  obtain rfl : s.opened = id := Option.some.inj hid
  exact List.mem_append_right _ (List.mem_singleton_self _)

theorem openSocket_sole (c : KisClient) (key : Text) (h : s.unclosed = []) :
    (s.openSocket c key).1.SoleSocket := by
  have hunclosed : (s.openSocket c key).1.unclosed = [s.opened] := by
    rw [openSocket, h]
    rfl
  refine ⟨?_, ?_, ?_⟩
  · rw [hunclosed]
    exact Nat.le_refl 1
  · intro id hid
    rw [hunclosed] at hid
    rw [List.mem_singleton.mp hid]
    rfl
  · rw [hunclosed]
    exact iff_of_true rfl (List.cons_ne_nil _ _)

theorem close_holdsOpen : s.close.1.HoldsOpen := nofun

theorem close_sole (hJ : s.HoldsOpen) (hP : s.SoleSocket) : s.close.1.SoleSocket := by
  have hnil : s.close.1.unclosed = [] := by
    rw [close, hP.unclosed_eq hJ]
    cases s.client.ws with
    | none => rfl
    | some id => simp
  refine ⟨?_, ?_, ?_⟩
  · rw [hnil]
    exact Nat.zero_le 1
  · rw [hnil]
    exact nofun
  · exact iff_of_false nofun (not_not.mpr hnil)

/-! ### The step and the run -/

theorem apply_holdsOpen (hJ : s.HoldsOpen) (op : KisOperation) :
    (s.apply pr parseWall op).1.HoldsOpen := by
  cases op with
  | authenticate force now answer answered =>
      by_cases hgo : force = true ∨ s.client.isTokenValid now = false
      · exact (s.authenticate_unsettled pr parseWall answer answered hgo).holdsOpen hJ
      · rw [apply, s.authenticate_skipped pr parseWall answer answered hgo]
        exact hJ
  | connect now approval opening =>
      rw [apply]
      obtain h | ⟨-, h | ⟨c, key, h⟩⟩ := s.connect_cases pr now approval opening
      · rw [h]
        exact hJ
      · exact h.holdsOpen hJ
      · rw [h]
        exact openSocket_holdsOpen c key
  | subscribe trId symbols => exact hJ
  | close closing => exact close_holdsOpen

/-- An operation keeps the one socket exactly when it does not re-authenticate with a socket
in hand. -/
theorem apply_sole_iff (hJ : s.HoldsOpen) (hP : s.SoleSocket) (op : KisOperation) :
    (s.apply pr parseWall op).1.SoleSocket ↔ ¬s.Reauthenticates op := by
  cases op with
  | authenticate force now answer answered =>
      by_cases hgo : force = true ∨ s.client.isTokenValid now = false
      · rw [apply, (s.authenticate_unsettled pr parseWall answer answered hgo).sole_iff hJ hP,
          Reauthenticates, and_iff_left hgo, not_not]
      · rw [apply, s.authenticate_skipped pr parseWall answer answered hgo]
        exact iff_of_true hP fun h => hgo h.2
  | connect now approval opening =>
      refine iff_of_true ?_ id
      rw [apply]
      obtain h | ⟨hnot, h⟩ := s.connect_cases pr now approval opening
      · rw [h]
        exact hP
      have hnone : s.client.ws = none :=
        not_not.mp fun hws => hnot ⟨hP.connected hJ hws, hws⟩
      cases h with
      | inl h => exact (h.sole_iff hJ hP).mpr hnone
      | inr h =>
          obtain ⟨c, key, h⟩ := h
          rw [h]
          exact openSocket_sole c key (by rw [hP.unclosed_eq hJ, hnone]; rfl)
  | subscribe trId symbols => exact iff_of_true hP id
  | close closing => exact iff_of_true (close_sole hJ hP) id

/-- In a sequence of operations every state has its one socket exactly when no operation
re-authenticates with a socket in hand. -/
theorem sole_socket_iff (pr : Json.Printing) (parseWall : Text → Except Exn Int)
    (settings : KisSettings) (ops : List KisOperation) :
    (machine pr parseWall).Throughout SoleSocket (start settings) ops ↔
      (machine pr parseWall).Along (fun s op => ¬s.Reauthenticates op) (start settings) ops := by
  refine Machine.throughout_iff_along (I := HoldsOpen) ?_ ?_ ?_ ops nofun (start_sole settings)
  · intro s op
    exact ⟨_, _, rfl⟩
  · intro s op s' es hJ hs
    obtain ⟨rfl, -⟩ := Prod.mk.inj (Option.some.inj hs)
    exact apply_holdsOpen pr parseWall hJ op
  · intro s op s' es hJ hP hs
    obtain ⟨rfl, -⟩ := Prod.mk.inj (Option.some.inj hs)
    exact apply_sole_iff pr parseWall hJ hP op

def paperSettings : KisSettings := { appKey := text "key", appSecret := text "secret" }

def answering (fields : List (Text × Json)) : Except Exn TextResponse :=
  .ok { statusCode := 200, json := .ok (.obj fields), body := [] }

def tokenAnswer : Except Exn TextResponse :=
  answering [(text "access_token", .str (text "token")), (text "expires_in", .int 86400)]

def keyAnswer : Except Exn TextResponse := answering [(text "approval_key", .str (text "key"))]

/-- A token, a socket, a forced refresh of the token, and `connect` again. -/
def refreshAndConnect : List KisOperation :=
  [.authenticate false 0 tokenAnswer 0, .connect 0 keyAnswer (.ok ()),
    .authenticate true 0 tokenAnswer 0, .connect 0 keyAnswer (.ok ())]

theorem refreshAndConnect_leaks :
    ¬(machine ⟨1, 1, fun _ => true⟩ fun _ => raise .valueError).Throughout SoleSocket
      (start paperSettings) refreshAndConnect := by
  intro h
  have htwo : (refreshAndConnect.foldl
      (fun s op => (s.apply ⟨1, 1, fun _ => true⟩ (fun _ => raise .valueError) op).1)
      (start paperSettings)).unclosed = [0, 1] := by
    decide +kernel
  have hlast := Machine.throughout_last h rfl
  have hone := hlast.atMostOne
  exact absurd (htwo ▸ hone) (by decide)

end KisSystem
end NexusBackend
