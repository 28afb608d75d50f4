import NexusBackend.Library.FloatArithmetic
import NexusBackend.Library.JsonDecoded
import NexusBackend.Persistence.Worker
import Mathlib.Data.Finmap

/-!
`UsPublisher`: one request to the chart endpoint, what is read of its answer, and the tick that
goes out for a symbol. A day volume is cumulative; a tick carries what was added to it since the
last quote of the symbol.

The request raises, or it is answered with a status and a body; a body without a text is one
whose bytes do not decode. Publishing to Redis succeeds.
-/
namespace NexusBackend

open Python

namespace UsPolling

/-! ### The answer of the endpoint -/

/-- `chart.result[0].meta`. -/
abbrev Meta := List (Text × Json)

inductive Upstream
  | raises (e : Exn)
  | response (status : Nat) (body : Option Text)

/-- The value of a key that holds an object. -/
def objectAt? (pairs : List (Text × Json)) (key : Text) : Option (List (Text × Json)) :=
  match Json.get? pairs key with
  | some (.obj inner) => some inner
  | _ => none

/-- `chart.get("error") is not None`. -/
def hasError (chart : List (Text × Json)) : Bool :=
  match Json.get? chart (text "error") with
  | none => false
  | some .null => false
  | some _ => true

/-- The first entry of `chart.get("result")`. -/
def firstResult? (chart : List (Text × Json)) : Option (List (Text × Json)) :=
  match Json.get? chart (text "result") with
  | some (.arr (.obj head :: _)) => some head
  | _ => none

/-- The `meta` of a body, where there is one that is not empty. -/
def metaOf (body : Json) : Option Meta :=
  match body with
  | .obj pairs => do
      let chart ← objectAt? pairs (text "chart")
      if hasError chart then none
      else
        let head ← firstResult? chart
        (objectAt? head (text "meta")).filter fun m => !m.isEmpty
  | _ => none

/-- `_fetch_quote`: a status other than a success raises, and so does a body that is no JSON. -/
def fetchQuote (loadsLimit : Nat) : Upstream → Except Exn (Option Meta)
  | .raises e => .error e
  | .response status body =>
      if 200 ≤ status ∧ status < 300 then
        match body with
        | none => raise .valueError
        | some s => metaOf <$> Json.loads loadsLimit s
      else raise (.named (text "HTTPStatusError"))

/-! ### A quote -/

/-- `meta.get(key)`. -/
def Meta.get (m : Meta) (key : Text) : Json := (Json.get? m key).getD .null

theorem get_binary {m : Meta} (h : (Json.obj m).Binary) (key : Text) : (m.get key).Binary := by
  rw [Meta.get]
  cases hkey : Json.get? m key with
  | none => trivial
  | some v => exact h.of_get? hkey

/-- `a or b`. -/
def orValue (a b : Json) : Json := if a.truthy then a else b

/-- `meta.get("previousClose") or meta.get("chartPreviousClose")`. -/
def Meta.close (m : Meta) : Json :=
  orValue (m.get (text "previousClose")) (m.get (text "chartPreviousClose"))

def Meta.priceRaw (m : Meta) : Json :=
  match m.get (text "regularMarketPrice") with
  | .null => m.close
  | v => v

/-- The price, where it reads as a number that is not zero or less. -/
def Meta.price (m : Meta) : Except Exn (Option Python.Float) := do
  let price ← tryExcept (some <$> m.priceRaw.toFloat) [.typeError, .valueError] fun _ => .ok none
  return price.filter fun x => !x.le (.finite 0)

def Meta.previousClose (m : Meta) (price : Python.Float) : Except Exn Python.Float :=
  tryExcept (orValue m.close (.float price)).toFloat [.typeError, .valueError] fun _ => .ok price

/-- `int(float(meta.get("regularMarketVolume") or 0))`, and zero where that is no number. -/
def Meta.dayVolume (m : Meta) : Except Exn Int :=
  tryExcept ((orValue (m.get (text "regularMarketVolume")) (.int 0)).toFloat >>= intOfFloat)
    [.typeError, .valueError] fun _ => .ok 0

structure Quote where
  price : Python.Float
  previousClose : Python.Float
  dayVolume : Int

/-- The numbers of a quote, in the order in which they are read. -/
def Meta.quote (m : Meta) : Except Exn (Option Quote) := do
  match ← m.price with
  | none => return none
  | some price =>
      let previousClose ← m.previousClose price
      let dayVolume ← m.dayVolume
      return some ⟨price, previousClose, dayVolume⟩

/-- The change against the previous close in percent. -/
def Quote.changePct (q : Quote) : Python.Float :=
  if (Python.Float.finite 0).lt q.previousClose then
    ((q.price.sub q.previousClose).div q.previousClose).mul (.finite 100)
  else .finite 0

def Quote.side (q : Quote) : TickSide :=
  if (Python.Float.finite 0).le q.changePct then .buy else .sell

/-- The dictionary that goes out for a quote. -/
structure WireTick where
  symbol : Text
  ts : Text
  price : Python.Float
  volume : Int
  side : TickSide

def WireTick.toJson (t : WireTick) : Json :=
  .obj [(text "symbol", .str t.symbol), (text "ts", .str t.ts), (text "price", .float t.price),
    (text "volume", .int t.volume), (text "side", .str t.side.value)]

/-- `_last_volume`. -/
abbrev Baselines := Finmap fun _ : Text => Int

/-- The volume of a tick: what was added since the last quote, and zero for the first quote and
where the day volume has fallen. -/
def tickVolume (lastSeen : Option Int) (dayVolume : Int) : Int :=
  match lastSeen with
  | none => 0
  | some last => if last ≤ dayVolume then dayVolume - last else 0

/-- The tick of a quote. -/
def Quote.tick (quote : Quote) (lastVolume : Baselines) (now : UtcTime) (symbol : Text) :
    WireTick where
  symbol := symbol
  ts := now.toDateTime.isoformatMilliseconds
  price := quote.price.roundTo 4
  volume := tickVolume (lastVolume.lookup symbol) quote.dayVolume
  side := quote.side

/-- `_quote_to_tick`: the tick, and the baselines with the day volume of its symbol. -/
def quoteToTick (lastVolume : Baselines) (now : UtcTime) (symbol : Text) (m : Meta) :
    Except Exn (Option (WireTick × Baselines)) := do
  match ← m.quote with
  | none => return none
  | some quote =>
      return some (quote.tick lastVolume now symbol, lastVolume.insert symbol quote.dayVolume)

section
variable {m : Meta} {lastVolume : Baselines} {now : UtcTime} {symbol : Text}

theorem quote_of_none (h : m.price = .ok none) : m.quote = .ok none := by
  rw [Meta.quote, h]
  rfl

theorem quote_of_price {price : Python.Float} (h : m.price = .ok (some price)) :
    m.quote = m.previousClose price >>= fun previousClose =>
      m.dayVolume >>= fun dayVolume => .ok (some ⟨price, previousClose, dayVolume⟩) := by
  rw [Meta.quote, h]
  rfl

theorem quoteToTick_of_error {e : Exn} (h : m.quote = .error e) :
    quoteToTick lastVolume now symbol m = .error e := by
  rw [quoteToTick, h]
  rfl

theorem quoteToTick_of_none (h : m.quote = .ok none) :
    quoteToTick lastVolume now symbol m = .ok none := by
  rw [quoteToTick, h]
  rfl

theorem quoteToTick_of_quote {quote : Quote} (h : m.quote = .ok (some quote)) :
    quoteToTick lastVolume now symbol m =
      .ok (some (quote.tick lastVolume now symbol,
        lastVolume.insert symbol quote.dayVolume)) := by
  rw [quoteToTick, h]
  rfl

end

/-! ### A batch -/

/-- The parameters of the constructor that a poll reads. -/
structure Config where
  symbols : List Text
  dataSourceUrl : Text
  batchSize : Nat
  yahooSuffix : Text
  yahooMap : List (Text × Text)
  observed : Bool
  symbols_ne : symbols ≠ []
  batch_pos : 1 ≤ batchSize

/-- The address of a symbol: its entry in the map, or the symbol with the suffix. -/
def Config.url (cfg : Config) (symbol : Text) : Text :=
  cfg.dataSourceUrl ++ text "/" ++ (Json.get? cfg.yahooMap symbol).getD (symbol ++ cfg.yahooSuffix)
    ++ text "?interval=1m&range=1d"

/-- The symbols of a batch, from the cursor on and around the end of the list. -/
def Config.batch (cfg : Config) (cursor : Nat) : List Text :=
  (List.range (min cfg.batchSize cfg.symbols.length)).map fun i =>
    cfg.symbols.getD ((cursor % cfg.symbols.length + i) % cfg.symbols.length) []

end UsPolling

/-- What a `UsPublisher` keeps from poll to poll. -/
structure UsPolling where
  cursor : Nat := 0
  published : Nat := 0
  failures : Nat := 0
  lastVolume : UsPolling.Baselines := ∅

namespace UsPolling

def advance (cfg : Config) (p : UsPolling) : UsPolling :=
  { p with
    cursor := (p.cursor % cfg.symbols.length + (cfg.batch p.cursor).length) % cfg.symbols.length }

/-- What the outside does while one symbol has its turn. -/
structure Surroundings where
  upstream : Text → Upstream
  now : UtcTime
  onTick : Tick → Except Exn Unit

/-- The observer sees the tick as the dictionary reads; what goes wrong there is logged. -/
def notify (cfg : Config) (py : Json.Printing) (w : Surroundings) (tick : WireTick) :
    Except Exn Unit :=
  if cfg.observed then
    Except.tryCatch (dictToTick py tick.toJson >>= w.onTick) fun _ => .ok ()
  else .ok ()

/-- One symbol has its turn: the state afterwards, and the tick that went out. -/
def pollSymbol (cfg : Config) (py : Worker.Interpreter) (w : Surroundings) (p : UsPolling)
    (symbol : Text) : Except Exn (UsPolling × Option WireTick) :=
  match fetchQuote py.loadsLimit (w.upstream (cfg.url symbol)) with
  | .error _ => .ok ({ p with failures := p.failures + 1 }, none)
  | .ok none => .ok (p, none)
  | .ok (some m) => do
      match ← quoteToTick p.lastVolume w.now symbol m with
      | none => return (p, none)
      | some (tick, lastVolume) =>
          notify cfg py.toPrinting w tick
          return ({ p with published := p.published + 1, lastVolume := lastVolume }, some tick)

/-- What a poll has done: the symbols it asked for, the ticks it sent, and what it raised. -/
structure BatchRun where
  state : UsPolling
  fetched : List Text
  published : List WireTick
  raised : Option Exn

/-- The loop over the batch. -/
def pollSymbols (cfg : Config) (py : Worker.Interpreter) (world : Nat → Surroundings) :
    Nat → UsPolling → List Text → BatchRun
  | _, p, [] => ⟨p, [], [], none⟩
  | k, p, symbol :: batch =>
      match pollSymbol cfg py (world k) p symbol with
      | .error e => ⟨p, [symbol], [], some e⟩
      | .ok (p', tick) =>
          let rest := pollSymbols cfg py world (k + 1) p' batch
          { rest with
            fetched := symbol :: rest.fetched
            published := tick.toList ++ rest.published }

/-- `_poll_one_batch`. -/
def pollOneBatch (cfg : Config) (py : Worker.Interpreter) (world : Nat → Surroundings)
    (p : UsPolling) : BatchRun :=
  pollSymbols cfg py world 0 (p.advance cfg) (cfg.batch p.cursor)

end UsPolling
end NexusBackend
