import NexusBackend.Kis.Frames
import NexusBackend.Library.Utf8

/-!
`KisClient.stream_ticks` over any sequence of frames: which frames end it, what it
yields and what it sends back.

The stream is taken as opened. A sequence of frames is what the connection delivers
before it ends, so the end of the sequence is the end of the connection; a send may
find it closed earlier. The consumer takes every item.
-/
namespace NexusBackend
namespace KisClient

open Python

/-! ### Frames and the connection -/

/-- A text frame reaches the client decoded, so it holds no surrogates. -/
inductive Frame
  | text (chars : Text) (scalar : ∀ c ∈ chars, Utf8.IsScalar c)
  | binary (bytes : List UInt8)

namespace Frame

/-- What the loop works on. -/
def raw : Frame → Text
  | text chars _ => chars
  | binary bytes => Utf8.decode (bytes.map UInt8.toNat)

/-- The bytes of the frame on the wire. -/
def payload : Frame → List Nat
  | text chars _ => Utf8.encode chars
  | binary bytes => bytes.map UInt8.toNat

/-- Sending the text back sends the bytes that came, where they are UTF-8. -/
theorem encode_raw_iff (f : Frame) : Utf8.encode f.raw = f.payload ↔ Utf8.Valid f.payload := by
  cases f with
  | text chars scalar => exact iff_of_true rfl ⟨chars, scalar, rfl⟩
  | binary bytes => exact Utf8.encode_decode_iff _

end Frame

/-- The connection as a send would find it; `released` is the time after `close()`
has dropped it. -/
inductive Link
  | up
  | lost
  | released
deriving DecidableEq

/-- A frame with the connection and the clock at the time it is handled. -/
structure Delivery where
  frame : Frame
  link : Link
  now : Nat → ClockReading

def connectionClosed : ExnKind := .named (text "ConnectionClosed")

/-! ### Control frames -/

/-- The branches of `_handle_control_frame`. -/
inductive ControlFrame
  | badJson
  | pingPong
  | subscribeAck
  | subscribeError
  | other
deriving DecidableEq

/-- `found or {}`. -/
def orEmpty (found : Option Json) : Json :=
  match found with
  | some x => if x.truthy then x else .obj []
  | none => .obj []

/-- `payload.get(key) or {}`. -/
def getOrEmpty (v : Json) (key : Text) : Except Exn Json := orEmpty <$> v.dictGet key

def isText (v : Json) (s : Text) : Bool :=
  match v with
  | .str t => t = s
  | _ => false

def classify (trId body : Json) : ControlFrame :=
  if isText trId (text "PINGPONG") then .pingPong
  else
    match body with
    | .obj fields =>
        match Json.get? fields (text "rt_cd") with
        | some rtCd => if isText rtCd (text "0") then .subscribeAck else .subscribeError
        | none => .other
    | _ => .other

def readControlFrame (limit : Nat) (raw : Text) : Except Exn ControlFrame := do
  let payload ← tryExcept (some <$> Json.loads limit raw) [.valueError] fun _ => .ok none
  match payload with
  | none => return .badJson
  | some payload =>
      let header ← getOrEmpty payload (text "header")
      let body ← getOrEmpty payload (text "body")
      let trId ← header.dictGet (text "tr_id")
      return classify (trId.getD (.str [])) body

/-! ### The stream -/

inductive StreamItem
  | tick (t : Tick)
  | quote (q : Quote)
deriving DecidableEq

/-- `await self._ws.send(raw)`, where the client still holds the connection: the bytes sent. -/
def echo (link : Link) (raw : Text) : Except Exn (List (List Nat)) :=
  match link with
  | .up => .ok [Utf8.encode raw]
  | .lost => raise connectionClosed
  | .released => .ok []

def isControl (raw : Text) : Bool := startsWith raw (text "\x7b")

def isData (raw : Text) : Bool := startsWith raw (text "0|")

/-- The topic of a data frame is the order book. -/
def isQuoteFrame (raw : Text) : Bool :=
  let parts := splitMax 124 3 raw
  2 ≤ parts.length && parts.getD 1 [] = trIdQuote

/-- One turn of the loop: the items yielded and the payloads sent. Encrypted and unknown
frames are only logged. -/
def handleFrame (limit : Nat) (d : Delivery) :
    Except Exn (List StreamItem × List (List Nat)) :=
  let raw := d.frame.raw
  if isControl raw then do
    match ← readControlFrame limit raw with
    | .pingPong => return ([], ← echo d.link raw)
    | _ => return ([], [])
  else if isData raw then
    if isQuoteFrame raw then do
      return ((← parseH0stasp0Frame (d.now 0) raw).map .quote, [])
    else do
      return ((← parseH0stcnt0Frame d.now raw).map .tick, [])
  else .ok ([], [])

inductive StreamEnd
  | closed
  | raised (e : Exn)
deriving DecidableEq

structure StreamRun where
  items : List StreamItem
  sent : List (List Nat)
  ending : StreamEnd

def streamTicks (limit : Nat) : List Delivery → StreamRun
  | [] => ⟨[], [], .closed⟩
  | d :: ds =>
      match handleFrame limit d with
      | .ok (items, sent) =>
          let rest := streamTicks limit ds
          ⟨items ++ rest.items, sent ++ rest.sent, rest.ending⟩
      | .error e =>
          if e.isInstance [connectionClosed] then ⟨[], [], .closed⟩ else ⟨[], [], .raised e⟩

/-! ### What the stream owes each frame -/

def isPingPong (limit : Nat) (raw : Text) : Bool :=
  isControl raw &&
    match readControlFrame limit raw with
    | .ok .pingPong => true
    | _ => false

/-- The items of a frame on its own, each record of it on its own. -/
def ownItems (d : Delivery) : List StreamItem :=
  if isData d.frame.raw then
    if isQuoteFrame d.frame.raw then
      match parseH0stasp0Frame (d.now 0) d.frame.raw with
      | .ok quotes => quotes.map .quote
      | .error _ => []
    else (ownTicks d.now 0 (tradeRecords d.frame.raw)).map .tick
  else []

/-- A heartbeat on a connection that is up is owed its own bytes, once. -/
def owedEcho (limit : Nat) (d : Delivery) : List (List Nat) :=
  if isPingPong limit d.frame.raw ∧ d.link = .up then [d.frame.payload] else []

/-- The echo of this frame finds the connection closed. -/
def findsClosed (limit : Nat) (d : Delivery) : Bool :=
  isPingPong limit d.frame.raw && d.link = .lost

/-- The frames before the connection is found closed. -/
def delivered (limit : Nat) (ds : List Delivery) : List Delivery :=
  ds.takeWhile fun d => !findsClosed limit d

/-- The stream ends with the connection, yields every frame's own items in order, and
echoes every heartbeat. -/
def StreamsFaithfully (limit : Nat) (ds : List Delivery) : Prop :=
  let run := streamTicks limit ds
  run.ending = .closed ∧ run.items = (delivered limit ds).flatMap ownItems ∧
    run.sent = (delivered limit ds).flatMap (owedEcho limit)

/-- The JSON is not nested beyond the recursion limit, and its header, where it is
truthy, is an object. -/
def ControlReadable (limit : Nat) (raw : Text) : Prop :=
  (∀ e, Json.loads limit raw = .error e → e.kind ≠ .recursionError) ∧
    ∀ pairs header, Json.loads limit raw = .ok (.obj pairs) →
      Json.get? pairs (text "header") = some header → header.truthy = true →
        ∃ fields, header = .obj fields

/-- The frames the stream takes as it should: control frames that read, heartbeats in
UTF-8, and trades without a price that raises. -/
def Delivery.Harmless (limit : Nat) (d : Delivery) : Prop :=
  (isControl d.frame.raw = true → ControlReadable limit d.frame.raw) ∧
    (isPingPong limit d.frame.raw = true → d.link = .up → Utf8.Valid d.frame.payload) ∧
    (isData d.frame.raw = true → isQuoteFrame d.frame.raw = false →
      ∀ record ∈ tradeRecords d.frame.raw, ¬ PriceRaises record)

/-! ### Control frames read -/

theorem control_head {raw : Text} (h : isControl raw = true) : raw.head? = some 123 := by
  cases raw with
  | nil => cases h
  | cons c rest =>
      have hc : (123 == c && List.isPrefixOf [] rest) = true := h
      simp only [List.isPrefixOf, Bool.and_true, beq_iff_eq] at hc
      rw [← hc, List.head?_cons]

theorem not_closed {e : Exn} {kind : ExnKind} (h : e.kind = kind)
    (hk : kind.isA connectionClosed = false) : e.isInstance [connectionClosed] = false := by
  rw [Exn.isInstance, List.any_cons, h, hk]
  rfl

theorem dictGet_ends (v : Json) (key : Text) :
    Ends (fun _ => ∃ fields, v = .obj fields)
      (fun e => e.kind = .attributeError ∧ ¬ ∃ fields, v = .obj fields) (v.dictGet key) := by
  simp only [Json.dictGet]
  split
  · exact ends_ok ⟨_, rfl⟩
  · rename_i hobj
    exact ends_error ⟨rfl, fun ⟨fields, h⟩ => hobj fields h⟩

theorem readControlFrame_ends (limit : Nat) (raw : Text) :
    Ends (fun _ => True) (fun e => e.isInstance [connectionClosed] = false)
      (readControlFrame limit raw) := by
  have hdict (v : Json) (key : Text) : Ends (fun _ => True)
      (fun e => e.isInstance [connectionClosed] = false) (v.dictGet key) :=
    (dictGet_ends v key).mono (fun _ _ => trivial) fun e h => not_closed h.1 rfl
  have hget (v : Json) (key : Text) := ends_map (f := orEmpty) (P := fun _ => True)
    (hdict v key) fun _ _ => trivial
  have hloads : Ends (fun _ => True) (fun e => e.isInstance [connectionClosed] = false)
      (tryExcept (some <$> Json.loads limit raw) [.valueError] fun _ => .ok none) := by
    refine ends_tryExcept (F := Json.Refusal) (ends_map (Json.loads_reads limit raw)
      fun _ _ => trivial) (fun e _ _ => ends_ok trivial) fun e h hu => ?_
    exact not_closed (h.resolve_left (by simp [hu])) rfl
  refine ends_bind hloads fun payload _ => ?_
  split
  · exact ends_ok trivial
  · exact ends_bind (hget _ _) fun header _ => ends_bind (hget _ _) fun body _ =>
      ends_bind (hdict _ _) fun trId _ => ends_ok trivial

theorem orEmpty_object_iff (found : Option Json) :
    (∃ fields, orEmpty found = .obj fields) ↔
      ∀ x, found = some x → x.truthy = true → ∃ fields, x = .obj fields := by
  cases found with
  | none => simp [orEmpty]
  | some x => by_cases hx : x.truthy = true <;> simp [orEmpty, hx]

theorem readControlFrame_object {limit : Nat} {raw : Text} {pairs : List (Text × Json)}
    (h : Json.loads limit raw = .ok (.obj pairs)) :
    (readControlFrame limit raw).isOk = true ↔
      ∃ fields, orEmpty (Json.get? pairs (text "header")) = .obj fields := by
  simp only [readControlFrame]
  rw [h]
  change ((orEmpty (Json.get? pairs (text "header"))).dictGet (text "tr_id") >>= _).isOk = _ ↔ _
  rw [isOk_bind (f := fun trId : Option Json =>
    pure (classify (trId.getD (.str [])) (orEmpty (Json.get? pairs (text "body")))))
    fun trId => ⟨_, rfl⟩]
  have hends := dictGet_ends (orEmpty (Json.get? pairs (text "header"))) (text "tr_id")
  cases hd : (orEmpty (Json.get? pairs (text "header"))).dictGet (text "tr_id") with
  | ok trId => exact iff_of_true rfl (hends.1 _ hd)
  | error e => exact iff_of_false nofun (hends.2 _ hd).2

theorem readControlFrame_refused {limit : Nat} {raw : Text} {e : Exn}
    (h : Json.loads limit raw = .error e) :
    (readControlFrame limit raw).isOk = true ↔ e.kind ≠ .recursionError := by
  have hrefused := Json.loads_error h
  simp only [readControlFrame]
  rw [h]
  change (tryExcept (.error e) _ _ >>= _).isOk = _ ↔ _
  cases hi : e.isInstance [.valueError] with
  | true =>
      rw [tryExcept_caught _ hi]
      refine iff_of_true rfl fun hk => ?_
      rw [Exn.isInstance, hk] at hi
      cases hi
  | false =>
      rw [tryExcept_uncaught _ hi]
      exact iff_of_false nofun (not_not.mpr (hrefused.resolve_left (by simp [hi])))

/-- A control frame is taken apart exactly where its JSON and its header read. -/
theorem readControlFrame_isOk_iff {limit : Nat} {raw : Text} (hc : isControl raw = true) :
    (readControlFrame limit raw).isOk = true ↔ ControlReadable limit raw := by
  simp only [ControlReadable]
  cases hl : Json.loads limit raw with
  | error e =>
      rw [readControlFrame_refused hl]
      simp
  | ok v =>
      obtain ⟨pairs, rfl⟩ := Json.loads_object (control_head hc) hl
      rw [readControlFrame_object hl, orEmpty_object_iff]
      refine ⟨fun h => ⟨nofun, ?_⟩, fun h x hx => h.2 pairs x rfl hx⟩
      rintro pairs' header ⟨⟩ hheader
      exact h header hheader

/-! ### Data frames -/

theorem recordToTick_ends (now : ClockReading) (record : List Text) :
    Ends (fun _ => True) (fun e => e.isInstance [connectionClosed] = false)
      (recordToTick now record) := by
  cases hf : readFields record with
  | error e =>
      rw [recordToTick_unread now hf]
      exact ends_ok trivial
  | ok f =>
      rw [recordToTick_read now hf]
      split
      · exact ends_ok trivial
      · refine ends_bind (Q := fun _ => True) ((Decimal.leZero_ends f.price).mono
          (fun _ h => h) fun e h => not_closed h rfl) fun refused _ => ?_
        split
        · exact ends_ok trivial
        · exact (tickAt_ends now f).mono (fun _ h => h) fun e h => not_closed h rfl

theorem recordsToTicks_ends (now : Nat → ClockReading) (i : Nat) (rs : List (List Text)) :
    Ends (fun _ => True) (fun e => e.isInstance [connectionClosed] = false)
      (recordsToTicks now i rs) := by
  induction rs generalizing i with
  | nil => exact ends_ok trivial
  | cons record rest ih =>
      exact ends_bind (recordToTick_ends _ record) fun _ _ =>
        ends_bind (ih (i + 1)) fun _ _ => ends_ok trivial

theorem parseH0stcnt0Frame_isOk_iff (now : Nat → ClockReading) (raw : Text) :
    (parseH0stcnt0Frame now raw).isOk = true ↔
      ∀ record ∈ tradeRecords raw, ¬ PriceRaises record := by
  rw [parseH0stcnt0Frame_eq]
  exact recordsToTicks_ok_iff now 0 _

/-! ### One turn of the loop -/

/-- How a turn ends that does not find the connection closed: it raises, or it yields the
frame's own items and sends as many payloads as are owed. -/
def TurnEnds (limit : Nat) (d : Delivery) : Prop :=
  (∃ e, handleFrame limit d = .error e ∧ e.isInstance [connectionClosed] = false ∧
      ¬ d.Harmless limit) ∨
    ∃ sent, handleFrame limit d = .ok (ownItems d, sent) ∧
      sent.length = (owedEcho limit d).length ∧ (d.Harmless limit ↔ sent = owedEcho limit d)

section
variable {limit : Nat} {d : Delivery}

theorem data_not_control {raw : Text} (h : isControl raw = true) : isData raw = false := by
  have hhead := control_head h
  cases raw with
  | nil => cases hhead
  | cons c rest =>
      obtain rfl : c = 123 := by simpa using hhead
      rfl

theorem isPingPong_iff {raw : Text} : isPingPong limit raw = true ↔
    isControl raw = true ∧ readControlFrame limit raw = .ok .pingPong := by
  simp only [isPingPong]
  cases readControlFrame limit raw with
  | error e => simp
  | ok control => cases control <;> simp

theorem handleFrame_ping (hp : isPingPong limit d.frame.raw = true) :
    handleFrame limit d = (([], ·)) <$> echo d.link d.frame.raw := by
  obtain ⟨hc, hr⟩ := isPingPong_iff.mp hp
  unfold handleFrame
  dsimp only
  rw [if_pos hc, hr]
  rfl

theorem handleFrame_other {control : ControlFrame} (hc : isControl d.frame.raw = true)
    (hr : readControlFrame limit d.frame.raw = .ok control) (hne : control ≠ .pingPong) :
    handleFrame limit d = .ok ([], []) := by
  unfold handleFrame
  dsimp only
  rw [if_pos hc, hr]
  cases control with
  | pingPong => exact absurd rfl hne
  | _ => rfl

theorem harmless_control_iff (hc : isControl d.frame.raw = true) :
    d.Harmless limit ↔ (readControlFrame limit d.frame.raw).isOk = true ∧
      (isPingPong limit d.frame.raw = true → d.link = .up → Utf8.Valid d.frame.payload) := by
  rw [readControlFrame_isOk_iff hc]
  simp [Delivery.Harmless, hc, data_not_control hc]

theorem ping_turn (hp : isPingPong limit d.frame.raw = true)
    (hd : findsClosed limit d = false) : TurnEnds limit d := by
  obtain ⟨hc, hr⟩ := isPingPong_iff.mp hp
  right
  rw [handleFrame_ping hp, harmless_control_iff hc, hr, ← Frame.encode_raw_iff]
  have hitems : ownItems d = [] := by simp [ownItems, data_not_control hc]
  rw [hitems]
  cases hl : d.link with
  | up => exact ⟨_, rfl, by simp [owedEcho, hp, hl], by simp [owedEcho, hp, hl, Except.isOk,
      Except.toBool]⟩
  | lost => simp [findsClosed, hp, hl] at hd
  | released => exact ⟨_, rfl, by simp [owedEcho, hl], by simp [owedEcho, hl, Except.isOk,
      Except.toBool]⟩

theorem control_turn (hc : isControl d.frame.raw = true)
    (hd : findsClosed limit d = false) : TurnEnds limit d := by
  cases hr : readControlFrame limit d.frame.raw with
  | error e =>
      refine .inl ⟨e, ?_, (readControlFrame_ends limit _).2 e hr, fun h => ?_⟩
      · unfold handleFrame
        dsimp only
        rw [if_pos hc, hr]
        rfl
      · rw [harmless_control_iff hc, hr] at h
        cases h.1
  | ok control =>
      by_cases hne : control = .pingPong
      · exact ping_turn (isPingPong_iff.mpr ⟨hc, hne ▸ hr⟩) hd
      · have hp : isPingPong limit d.frame.raw = false := by
          rw [Bool.eq_false_iff, ne_eq, isPingPong_iff, hr]
          simp [hne]
        refine .inr ⟨[], ?_, by simp [owedEcho, hp], ?_⟩
        · rw [handleFrame_other hc hr hne]
          simp [ownItems, data_not_control hc]
        · rw [harmless_control_iff hc, hr]
          simp [owedEcho, hp, Except.isOk, Except.toBool]

/-- Outside of control frames nothing is owed but the items. -/
theorem quiet_turn (hc : isControl d.frame.raw = false)
    (hown : handleFrame limit d = .ok (ownItems d, []))
    (hh : d.Harmless limit) : TurnEnds limit d := by
  have hp : isPingPong limit d.frame.raw = false := by simp [isPingPong, hc]
  exact .inr ⟨[], hown, by simp [owedEcho, hp], iff_of_true hh (by simp [owedEcho, hp])⟩

theorem data_turn (hc : isControl d.frame.raw = false) : TurnEnds limit d := by
  have hp : isPingPong limit d.frame.raw = false := by simp [isPingPong, hc]
  cases hdata : isData d.frame.raw with
  | false =>
      refine quiet_turn hc ?_ (by simp [Delivery.Harmless, hc, hp, hdata])
      simp [handleFrame, ownItems, hc, hdata]
  | true =>
      cases hq : isQuoteFrame d.frame.raw with
      | true =>
          obtain ⟨quotes, h, -⟩ := parseH0stasp0Frame_ok (d.now 0) d.frame.raw
          refine quiet_turn hc ?_ (by simp [Delivery.Harmless, hc, hp, hq])
          simp [handleFrame, ownItems, hc, hdata, hq, h]
      | false =>
          have hparse := parseH0stcnt0Frame_isOk_iff d.now d.frame.raw
          have hharmless : d.Harmless limit ↔
              (parseH0stcnt0Frame d.now d.frame.raw).isOk = true := by
            rw [hparse]
            simp [Delivery.Harmless, hc, hp, hdata, hq]
          cases h : parseH0stcnt0Frame d.now d.frame.raw with
          | ok ticks =>
              refine quiet_turn hc ?_ (hharmless.mpr (by rw [h]; rfl))
              have hticks := h
              rw [parseH0stcnt0Frame_eq] at hticks
              simp [handleFrame, ownItems, hc, hdata, hq, h, ← recordsToTicks_ok hticks]
          | error e =>
              refine .inl ⟨e, ?_, ?_, fun hh => ?_⟩
              · simp [handleFrame, hc, hdata, hq, h]
              · rw [parseH0stcnt0Frame_eq] at h
                exact (recordsToTicks_ends _ _ _).2 e h
              · rw [hharmless, h] at hh
                cases hh

theorem turn_ends (hd : findsClosed limit d = false) : TurnEnds limit d := by
  cases hc : isControl d.frame.raw with
  | true => exact control_turn hc hd
  | false => exact data_turn hc

theorem handleFrame_closed (hd : findsClosed limit d = true) :
    ∃ e, handleFrame limit d = .error e ∧ e.isInstance [connectionClosed] = true := by
  simp only [findsClosed, Bool.and_eq_true, decide_eq_true_eq] at hd
  refine ⟨⟨connectionClosed, []⟩, ?_, rfl⟩
  rw [handleFrame_ping hd.1, hd.2]
  rfl

end

/-- The run is faithful exactly where every frame that is delivered is harmless. -/
theorem streamTicks_faithful_iff (limit : Nat) (ds : List Delivery) :
    StreamsFaithfully limit ds ↔ ∀ d ∈ delivered limit ds, d.Harmless limit := by
  induction ds with
  | nil => exact iff_of_true ⟨rfl, rfl, rfl⟩ (by simp [delivered])
  | cons d ds ih =>
      cases hd : findsClosed limit d with
      | true =>
          obtain ⟨e, he, hi⟩ := handleFrame_closed hd
          have hdel : delivered limit (d :: ds) = [] := by simp [delivered, hd]
          simp only [StreamsFaithfully]
          rw [hdel, streamTicks, he]
          simp [hi]
      | false =>
          have hdel : delivered limit (d :: ds) = d :: delivered limit ds := by
            simp [delivered, hd]
          rw [hdel, List.forall_mem_cons, ← ih]
          simp only [StreamsFaithfully]
          rw [hdel, streamTicks]
          obtain ⟨e, he, hi, hbad⟩ | ⟨sent, hs, hlen, hiff⟩ := turn_ends hd
          · rw [he]
            simp [hi, hbad]
          · rw [hs, hiff]
            simp only [List.flatMap_cons, List.append_cancel_left_eq]
            constructor
            · rintro ⟨hend, hitems, hsent⟩
              obtain ⟨h1, h2⟩ := List.append_inj hsent hlen
              exact ⟨h1, hend, hitems, h2⟩
            · rintro ⟨h1, hend, hitems, h2⟩
              exact ⟨hend, hitems, by rw [h1, h2]⟩

/-! ### Frames that end the stream -/

def noonReading : ClockReading where
  kstDate := sampleDate
  utcNow := ⟨sampleDate, ⟨3, 0, 0, 0, by decide⟩⟩
  kstDate_range := by decide

/-- A text frame at noon, on a connection that is up. -/
def textDelivery (s : String) (h : ∀ c ∈ text s, Utf8.IsScalar c) : Delivery where
  frame := .text (text s) h
  link := .up
  now := fun _ => noonReading

/-- A header that is a text, and a trade whose price is `NaN`. -/
theorem streamTicks_raises :
    ¬ StreamsFaithfully 1000 [textDelivery "\x7b\"header\": \"x\"\x7d" (by decide)] ∧
      ¬ StreamsFaithfully 1000 [textDelivery
        "0|H0STCNT0|1|005930^120000^NaN^^^^^^^^^^1^^^^^^^^^1^^^^^^^^^^^^^^^^^^^^^^^^"
        (by decide)] :=
  ⟨fun h => absurd h.1 (by decide), fun h => absurd h.1 (by decide)⟩

end KisClient
end NexusBackend
