import NexusBackend.Library.Transition
import NexusBackend.Persistence.TickWire

/-!
`KisPublisher`, one await at a time: the two subscriptions, and then each tick and each order book
of every frame, which goes to Redis and, if it is a tick, to the observer.

The environment chooses what the subscriptions, the connection, Redis and the observer do.
`stop()` cancels the task at the await it stands at; the refresh loop is left out.
-/
namespace NexusBackend

open Python Transition

def QuoteLevel.toWire (level : QuoteLevel) : Json :=
  .obj [(text "price", .int level.price), (text "volume", .int level.volume)]

/-- `_quote_to_wire`. -/
def quoteToWire (quote : Quote) : Json :=
  .obj [(text "type", .str (text "quote")), (text "symbol", .str quote.symbol),
    (text "ts", .str quote.ts.isoformatMilliseconds),
    (text "bids", .arr (quote.bids.map QuoteLevel.toWire)),
    (text "asks", .arr (quote.asks.map QuoteLevel.toWire))]

namespace KisClient.StreamItem

/-- The message of an item. -/
def payload (py : Json.Printing) : StreamItem → Except Exn Text
  | tick t => (tickToWire t).dumps py
  | quote q => (quoteToWire q).dumps py

def tick? : StreamItem → Option Tick
  | tick t => some t
  | quote _ => none

end KisClient.StreamItem

open KisClient (StreamItem Delivery handleFrame connectionClosed)

/-- The await that the task stands at, with the items of the frame that are still to come. -/
inductive KisPhase
  | stopped
  | subscribingTicks
  | subscribingQuotes
  | receiving
  | publishing (item : StreamItem) (payload : Text) (rest : List StreamItem)
  | observing (rest : List StreamItem)
  | finished
  | crashed (e : Exn)

structure KisPublisher where
  phase : KisPhase := .stopped
  published : Nat := 0

inductive KisLabel
  | start
  | stop
  | subscribed (answer : Except Exn Unit)
  | received (d : Delivery)
  | streamEnded (answer : Except Exn Unit)
  | published (answer : Except Exn Unit)
  | observed (answer : Except Exn Unit)

/-- What the outside sees, and the items that a session ends without: Redis has not answered. -/
inductive KisEvent
  | received (d : Delivery)
  | accepted (item : StreamItem) (payload : Text)
  | handed (tick : Tick)
  | lost (item : StreamItem)
  | failed (e : Exn)
  | halted
  | raised (e : Exn)

namespace KisPublisher

/-- `is_running`. -/
def isRunning (s : KisPublisher) : Bool :=
  match s.phase with
  | .stopped | .finished | .crashed _ => false
  | _ => true

/-- The items of the frame that are not published. -/
def pending (s : KisPublisher) : List StreamItem :=
  match s.phase with
  | .publishing item _ rest => item :: rest
  | .observing rest => rest
  | _ => []

/-- An exception ends the task. -/
def crash (s : KisPublisher) (e : Exn) (left : List StreamItem) : KisPublisher × List KisEvent :=
  ({ s with phase := .crashed e }, .failed e :: left.map .lost)

/-- On to the next item of the frame. -/
def next (py : Json.Printing) (s : KisPublisher) : List StreamItem → KisPublisher × List KisEvent
  | [] => ({ s with phase := .receiving }, [])
  | item :: rest =>
      match item.payload py with
      | .ok payload => ({ s with phase := .publishing item payload rest }, [])
      | .error e => s.crash e (item :: rest)

/-- Redis has taken the item. -/
def accept (observed : Bool) (py : Json.Printing) (s : KisPublisher) (item : StreamItem)
    (rest : List StreamItem) : KisPublisher × List KisEvent :=
  let s := { s with published := s.published + 1 }
  match item with
  | .tick t =>
      if observed then ({ s with phase := .observing rest }, [.handed t]) else s.next py rest
  | .quote _ => s.next py rest

/-- The stream is over, or it has raised: it catches that the connection is closed. -/
def endStream (s : KisPublisher) : Except Exn Unit → KisPublisher × List KisEvent
  | .ok () => ({ s with phase := .finished }, [])
  | .error e =>
      if e.isInstance [connectionClosed] then ({ s with phase := .finished }, []) else s.crash e []

/-- `stop()`: the exception of a task that has crashed comes out of it. -/
def halt (s : KisPublisher) : KisPublisher × List KisEvent :=
  match s.phase with
  | .crashed e => (s, [.raised e])
  | _ => ({ s with phase := .stopped }, .halted :: s.pending.map .lost)

def step (observed : Bool) (py : Json.Printing) (loadsLimit : Nat) (s : KisPublisher) :
    KisLabel → Option (KisPublisher × List KisEvent)
  | .start => some (if s.isRunning then s else { s with phase := .subscribingTicks }, [])
  | .stop => some s.halt
  | .subscribed answer =>
      match s.phase, answer with
      | .subscribingTicks, .ok () => some ({ s with phase := .subscribingQuotes }, [])
      | .subscribingQuotes, .ok () => some ({ s with phase := .receiving }, [])
      | .subscribingTicks, .error e | .subscribingQuotes, .error e => some (s.crash e [])
      | _, _ => none
  | .received d =>
      match s.phase with
      | .receiving =>
          match handleFrame loadsLimit d with
          | .ok (items, _) =>
              let next := s.next py items
              some (next.1, .received d :: next.2)
          | .error e => some (s.endStream (.error e))
      | _ => none
  | .streamEnded answer =>
      match s.phase with
      | .receiving => some (s.endStream answer)
      | _ => none
  | .published answer =>
      match s.phase with
      | .publishing item payload rest =>
          match answer with
          | .ok () =>
              let next := s.accept observed py item rest
              some (next.1, .accepted item payload :: next.2)
          | .error e => some (s.crash e (item :: rest))
      | _ => none
  | .observed _ =>
      match s.phase with
      | .observing rest => some (s.next py rest)
      | _ => none

/-- The publisher with or without an observer. -/
def machine (observed : Bool) (py : Json.Printing) (loadsLimit : Nat) :
    Machine KisPublisher KisLabel KisEvent where
  step := step observed py loadsLimit

end KisPublisher
end NexusBackend
