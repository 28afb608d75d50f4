import NexusBackend.Library.Transition
import NexusBackend.Publishers.TickMessages

/-!
`MockPublisher`, one await at a time: a random walk of twelve prices, a tick of it twice a second,
and an order book after every fourth tick.

The draws of `random`, the clock, the answers of Redis and what the observer does are chosen by the
environment. `stop()` cancels the task at the await it stands at and returns when the task has
ended.
-/
namespace NexusBackend

open Python Transition

/-- `_SEEDED_TICKERS`. -/
def seededTickers : List Text :=
  ["005930", "000660", "035420", "035720", "105560", "055550", "086790", "005380", "005490",
    "051910", "207940", "068270"].map text

/-- `_BASE_PRICES`. -/
def basePrices : List (Text × Python.Float) := [
  (text "005930", .finite 79000), (text "000660", .finite 197000), (text "035420", .finite 215000),
  (text "035720", .finite 50500), (text "105560", .finite 84300), (text "055550", .finite 47900),
  (text "086790", .finite 65700), (text "005380", .finite 245000), (text "005490", .finite 412000),
  (text "051910", .finite 387000), (text "207940", .finite 1055000),
  (text "068270", .finite 198500)]

/-- `DRIFT_STD`. -/
def driftStd : Python.Float := .ofScientific false 2 (-3)

/-- What `_next_tick` draws. -/
structure TickDraw where
  symbol : Text
  gauss : Python.Float
  now : UtcTime
  volume : Int
  side : TickSide
  seeded : symbol ∈ seededTickers
  volume_range : 100 ≤ volume ∧ volume ≤ 10000

/-- What `_next_quote` draws, level by level. -/
structure QuoteDraw where
  now : UtcTime
  askVolume : Nat → Int
  bidVolume : Nat → Int
  ask_range : ∀ i, 500 ≤ askVolume i ∧ askVolume i ≤ 5000
  bid_range : ∀ i, 500 ≤ bidVolume i ∧ bidVolume i ≤ 5000

/-- The dictionary of an order book. -/
structure WireQuote where
  symbol : Text
  ts : Text
  bids : List QuoteLevel
  asks : List QuoteLevel
deriving DecidableEq

/-- The await that the task stands at; `tick` is the one it has made last. -/
inductive MockPhase
  | stopped
  | spawned
  | publishing (tick : UsPolling.WireTick) (now : UtcTime)
  | observing (tick : UsPolling.WireTick)
  | quoting
  | sleeping
  | crashed (e : Exn)

structure MockPublisher where
  phase : MockPhase := .stopped
  prices : List (Text × Python.Float) := basePrices
  published : Nat := 0
  quoteCounter : Nat := 0

inductive MockLabel
  | start
  | stop
  | wake (draw : TickDraw)
  | tickPublished (answer : Except Exn Unit) (draw : QuoteDraw)
  | observed (answer : Except Exn Unit) (draw : QuoteDraw)
  | quotePublished (answer : Except Exn Unit)

inductive MockEvent
  | offered (tick : UsPolling.WireTick) (now : UtcTime)
  | accepted (tick : UsPolling.WireTick) (now : UtcTime)
  | handed (tick : Tick)
  | quoteMade (quote : Except Exn WireQuote)
  | quoteAccepted
  | refused (e : Exn)
  | interrupted
  | raised (e : Exn)

namespace MockPublisher

/-- `max(1.0, x)`. -/
def floorAtOne (x : Python.Float) : Python.Float :=
  if (Python.Float.finite 1).lt x then x else .finite 1

/-- `_next_tick`: the prices after it, and the tick. -/
def nextTick (prices : List (Text × Python.Float)) (draw : TickDraw) :
    Except Exn (List (Text × Python.Float) × UsPolling.WireTick) := do
  let drift := draw.gauss.mul driftStd
  match Json.get? prices draw.symbol with
  | none => raise .keyError
  | some price =>
      let next := floorAtOne (price.mul ((Python.Float.finite 1).add drift))
      return (Json.setKey draw.symbol next prices, {
        symbol := draw.symbol
        ts := draw.now.toDateTime.isoformatMilliseconds
        price := next.roundTo 2
        volume := draw.volume
        side := draw.side })

/-- `_next_quote`. -/
def nextQuote (symbol : Text) (midPrice : Python.Float) (draw : QuoteDraw) :
    Except Exn WireQuote := do
  let mid ← intOfFloat midPrice
  return {
    symbol := symbol
    ts := draw.now.toDateTime.isoformatMilliseconds
    bids := (List.range 5).map fun i : Nat => ⟨mid - 100 * (i + 1), draw.bidVolume i⟩
    asks := (List.range 5).map fun i : Nat => ⟨mid + 100 * (i + 1), draw.askVolume i⟩ }

/-- `is_running`. -/
def isRunning (s : MockPublisher) : Bool :=
  match s.phase with
  | .stopped | .crashed _ => false
  | _ => true

/-- The rest of a turn after the observer: every fourth tick is followed by an order book. -/
def countTick (s : MockPublisher) (tick : UsPolling.WireTick) (draw : QuoteDraw) :
    MockPublisher × List MockEvent :=
  if 4 ≤ s.quoteCounter + 1 then
    let quote := nextQuote tick.symbol tick.price draw
    match quote with
    | .ok _ => ({ s with quoteCounter := 0, phase := .quoting }, [.quoteMade quote])
    | .error e => ({ s with quoteCounter := 0, phase := .crashed e }, [.quoteMade quote])
  else ({ s with quoteCounter := s.quoteCounter + 1, phase := .sleeping }, [])

/-- Redis has taken the tick; what goes wrong before the observer or in it is logged. -/
def acceptTick (observed : Bool) (pr : Json.Printing) (s : MockPublisher)
    (tick : UsPolling.WireTick) (draw : QuoteDraw) : MockPublisher × List MockEvent :=
  let s := { s with published := s.published + 1 }
  if observed then
    match dictToTick pr tick.toJson with
    | .ok t => ({ s with phase := .observing tick }, [.handed t])
    | .error _ => s.countTick tick draw
  else s.countTick tick draw

/-- `stop()`: the exception of a task that has crashed comes out of it. -/
def halt (s : MockPublisher) : MockPublisher × List MockEvent :=
  match s.phase with
  | .crashed e => (s, [.raised e])
  | .observing _ => ({ s with phase := .stopped }, [.interrupted])
  | _ => ({ s with phase := .stopped }, [])

def step (observed : Bool) (pr : Json.Printing) (s : MockPublisher) :
    MockLabel → Option (MockPublisher × List MockEvent)
  | .start => some (if s.isRunning then s else { s with phase := .spawned }, [])
  | .stop => some s.halt
  | .wake draw =>
      match s.phase with
      | .spawned | .sleeping =>
          match nextTick s.prices draw with
          | .ok (prices, tick) =>
              some ({ s with prices := prices, phase := .publishing tick draw.now },
                [.offered tick draw.now])
          | .error e => some ({ s with phase := .crashed e }, [])
      | _ => none
  | .tickPublished answer draw =>
      match s.phase with
      | .publishing tick now =>
          match answer with
          | .ok () =>
              let next := s.acceptTick observed pr tick draw
              some (next.1, .accepted tick now :: next.2)
          | .error e => some ({ s with phase := .crashed e }, [.refused e])
      | _ => none
  | .observed _ draw =>
      match s.phase with
      | .observing tick => some (s.countTick tick draw)
      | _ => none
  | .quotePublished answer =>
      match s.phase with
      | .quoting =>
          match answer with
          | .ok () =>
              some ({ s with published := s.published + 1, phase := .sleeping }, [.quoteAccepted])
          | .error e => some ({ s with phase := .crashed e }, [.refused e])
      | _ => none

/-- The publisher with or without an observer. -/
def machine (observed : Bool) (pr : Json.Printing) : Machine MockPublisher MockLabel MockEvent where
  step := step observed pr

end MockPublisher
end NexusBackend
