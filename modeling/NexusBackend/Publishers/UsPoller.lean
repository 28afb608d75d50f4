import NexusBackend.Library.Transition
import NexusBackend.Publishers.TickMessages

/-!
`UsPublisher`, one await at a time: a batch of symbols, for each of them the request and, where
the answer makes a tick, Redis and the observer; then a pause, and the next batch from where the
cursor stands.

The environment chooses the answers of the endpoint, the clock, and what Redis and the observer do.
`stop()` cancels the task at the await it stands at and returns when the task has ended; the
cursor and the baselines stay for the next `start()`.
-/
namespace NexusBackend

open Python Transition
open UsPolling (Config Upstream Meta WireTick fetchQuote quoteToTick)

/-- The await that the task stands at, with the symbols of the batch that are still to come. -/
inductive UsPhase
  | stopped
  | spawned
  | fetching (symbol : Text) (rest : List Text)
  | publishing (tick : WireTick) (now : UtcTime) (payload : Text) (rest : List Text)
  | observing (rest : List Text)
  | sleeping
  | crashed (e : Exn)

structure UsPoller where
  phase : UsPhase := .stopped
  polling : UsPolling := {}

inductive UsLabel
  | start
  | stop
  | wake
  | fetched (upstream : Upstream) (now : UtcTime)
  | published (answer : Except Exn Unit)
  | observed (answer : Except Exn Unit)

/-- What the outside sees, and what a task ends without: the symbols that it has not asked for,
and the tick that Redis has not answered. -/
inductive UsEvent
  | answered (symbol : Text) (answer : Except Exn (Option Meta))
  | accepted (tick : WireTick) (now : UtcTime) (payload : Text)
  | handed (tick : Tick)
  | skipped (symbol : Text)
  | lost (tick : WireTick)
  | failed (e : Exn)
  | halted
  | raised (e : Exn)

namespace UsPoller

/-- `is_running`. -/
def isRunning (s : UsPoller) : Bool :=
  match s.phase with
  | .stopped | .crashed _ => false
  | _ => true

/-- The symbols of the batch that have no answer. -/
def waiting (s : UsPoller) : List Text :=
  match s.phase with
  | .fetching symbol rest => symbol :: rest
  | .publishing _ _ _ rest | .observing rest => rest
  | _ => []

/-- The tick that Redis has. -/
def flying (s : UsPoller) : List WireTick :=
  match s.phase with
  | .publishing tick _ _ _ => [tick]
  | _ => []

/-- What a task leaves that ends here. -/
def leaves (flying : List WireTick) (waiting : List Text) : List UsEvent :=
  flying.map .lost ++ waiting.map .skipped

def crash (s : UsPoller) (e : Exn) (flying : List WireTick) (waiting : List Text) :
    UsPoller × List UsEvent :=
  ({ s with phase := .crashed e }, .failed e :: leaves flying waiting)

/-- On to the next symbol of the batch. -/
def next (s : UsPoller) : List Text → UsPoller
  | [] => { s with phase := .sleeping }
  | symbol :: rest => { s with phase := .fetching symbol rest }

/-- `_poll_one_batch` begins: the cursor is advanced at once. -/
def beginBatch (cfg : Config) (s : UsPoller) : UsPoller :=
  UsPoller.next { s with polling := s.polling.advance cfg } (cfg.batch s.polling.cursor)

/-- The tick goes to Redis. -/
def offer (py : Json.Printing) (s : UsPoller) (tick : WireTick) (now : UtcTime)
    (rest : List Text) : UsPoller × List UsEvent :=
  match tick.toJson.dumps py with
  | .ok payload => ({ s with phase := .publishing tick now payload rest }, [])
  | .error e => s.crash e [tick] rest

/-- What becomes of an answer: a failed request is counted, and an answer that makes no tick is
passed over. The baseline is set before the tick goes out. -/
def take (py : Json.Printing) (s : UsPoller) (symbol : Text) (now : UtcTime)
    (rest : List Text) : Except Exn (Option Meta) → UsPoller × List UsEvent
  | .error _ =>
      (UsPoller.next
        { s with polling := { s.polling with failures := s.polling.failures + 1 } } rest, [])
  | .ok none => (s.next rest, [])
  | .ok (some m) =>
      match quoteToTick s.polling.lastVolume now symbol m with
      | .error e => s.crash e [] rest
      | .ok none => (s.next rest, [])
      | .ok (some (tick, lastVolume)) =>
          offer py { s with polling := { s.polling with lastVolume := lastVolume } } tick now rest

/-- Redis has taken the tick; what goes wrong before the observer or in it is logged. -/
def accept (cfg : Config) (py : Json.Printing) (s : UsPoller) (tick : WireTick)
    (rest : List Text) : UsPoller × List UsEvent :=
  let s := { s with polling := { s.polling with published := s.polling.published + 1 } }
  if cfg.observed then
    match dictToTick py tick.toJson with
    | .ok t => ({ s with phase := .observing rest }, [.handed t])
    | .error _ => (s.next rest, [])
  else (s.next rest, [])

/-- `stop()`: the exception of a task that has crashed comes out of it. -/
def halt (s : UsPoller) : UsPoller × List UsEvent :=
  match s.phase with
  | .crashed e => (s, [.raised e])
  | _ => ({ s with phase := .stopped }, .halted :: leaves s.flying s.waiting)

def step (cfg : Config) (py : Worker.Interpreter) (s : UsPoller) :
    UsLabel → Option (UsPoller × List UsEvent)
  | .start => some (if s.isRunning then s else { s with phase := .spawned }, [])
  | .stop => some s.halt
  | .wake =>
      match s.phase with
      | .spawned | .sleeping => some (s.beginBatch cfg, [])
      | _ => none
  | .fetched upstream now =>
      match s.phase with
      | .fetching symbol rest =>
          let answer := fetchQuote py.loadsLimit upstream
          let next := s.take py.toPrinting symbol now rest answer
          some (next.1, .answered symbol answer :: next.2)
      | _ => none
  | .published answer =>
      match s.phase with
      | .publishing tick now payload rest =>
          match answer with
          | .ok () =>
              let next := s.accept cfg py.toPrinting tick rest
              some (next.1, .accepted tick now payload :: next.2)
          | .error e => some (s.crash e [tick] rest)
      | _ => none
  | .observed _ =>
      match s.phase with
      | .observing rest => some (s.next rest, [])
      | _ => none

/-- The publisher of a configuration. -/
def machine (cfg : Config) (py : Worker.Interpreter) : Machine UsPoller UsLabel UsEvent where
  step := step cfg py

end UsPoller
end NexusBackend
