import NexusBackend.Persistence.MarketTick
import NexusBackend.Publishers.RoundRobin
import NexusBackend.Publishers.UsBatch
import NexusBackend.Publishers.UsPoller
import NexusBackend.Publishers.UsVolume

/-!
What holds in every run of `UsPublisher`, with its task started, stopped, crashed and started
again: whose turn it is, which volumes go out, and that the observer is handed what the worker
reads from the messages that Redis took.
-/
namespace NexusBackend

open Python Transition
open UsPolling (Config Meta WireTick)

/-- The first symbols to have a turn, around the list. -/
def UsPolling.Config.rotation (cfg : Config) (n : Nat) : List Text :=
  (RoundRobin.turns cfg.symbols.length 0 n).map fun i => cfg.symbols.getD i []

theorem UsPolling.Config.getD_symbols (cfg : Config) {i : Nat} (h : i < cfg.symbols.length) :
    cfg.symbols.getD i [] = cfg.symbols[i] := by
  rw [List.getD_eq_getElem?_getD, List.getElem?_eq_getElem h, Option.getD_some]

namespace UsPoller

/-! ### The events of a run -/

/-- The symbols whose turn is over: they were asked for or skipped. -/
def turnsOf (tr : List UsEvent) : List Text :=
  tr.filterMap fun
    | .answered symbol _ => some symbol
    | .skipped symbol => some symbol
    | _ => none

def skippedSymbols (tr : List UsEvent) : List Text :=
  tr.filterMap fun
    | .skipped symbol => some symbol
    | _ => none

/-- The day volume that an answer makes known. -/
def dayVolume? : Except Exn (Option Meta) → Option Int
  | .ok (some m) =>
      match m.quote with
      | .ok (some quote) => some quote.dayVolume
      | _ => none
  | _ => none

/-- The day volumes of a symbol. -/
def dayVolumes (symbol : Text) (tr : List UsEvent) : List Int :=
  tr.filterMap fun
    | .answered s answer => if s = symbol then dayVolume? answer else none
    | _ => none

/-- The ticks that went to Redis and are not there any more: it took them, or the task ended. -/
def sentTicks (tr : List UsEvent) : List WireTick :=
  tr.filterMap fun
    | .accepted tick _ _ => some tick
    | .lost tick => some tick
    | _ => none

def lostTicks (tr : List UsEvent) : List WireTick :=
  tr.filterMap fun
    | .lost tick => some tick
    | _ => none

/-- The ticks that Redis took, with their times and messages. -/
def acceptedTicks (tr : List UsEvent) : List (WireTick × UtcTime × Text) :=
  tr.filterMap fun
    | .accepted tick now payload => some (tick, now, payload)
    | _ => none

def handedTicks (tr : List UsEvent) : List Tick :=
  tr.filterMap fun
    | .handed tick => some tick
    | _ => none

def failuresOf (tr : List UsEvent) : Nat :=
  tr.countP fun
    | .answered _ (.error _) => true
    | _ => false

/-- How often a task was stopped or failed. -/
def endings (tr : List UsEvent) : Nat :=
  tr.countP fun
    | .halted | .failed _ => true
    | _ => false

/-- The volumes of a symbol. -/
def volumesOf (symbol : Text) (ticks : List WireTick) : List Int :=
  (ticks.filter fun tick => tick.symbol = symbol).map WireTick.volume

/-- No finite float is beyond it. -/
def volumeBound : Int := 2 ^ 1024

/-- A tick as the publisher makes it, with its message. -/
structure Composed (cfg : Config) (py : Json.Printing) (tick : WireTick) (now : UtcTime)
    (payload : Text) : Prop where
  symbol : tick.symbol ∈ cfg.symbols
  ts : tick.ts = now.toDateTime.isoformatMilliseconds
  price : ∀ q, tick.price = .finite q → IsDyadic q
  volume : 0 ≤ tick.volume ∧ tick.volume ≤ 2 * volumeBound
  message : tick.toJson.dumps py = .ok payload

/-- What the observer is handed of the ticks that Redis took. -/
def readTicks (py : Json.Printing) (ticks : List (WireTick × UtcTime × Text)) : List Tick :=
  ticks.filterMap fun p => (dictToTick py p.1.toJson).toOption

/-- The books of a run, with the symbols of the batch that have no answer and the tick that Redis
has. -/
structure Books (cfg : Config) (py : Json.Printing) (polling : UsPolling) (tr : List UsEvent)
    (waiting : List Text) (flying : List WireTick) : Prop where
  rotation : turnsOf tr ++ waiting = cfg.rotation (turnsOf tr ++ waiting).length
  cursor : polling.cursor = (turnsOf tr ++ waiting).length % cfg.symbols.length
  batch : waiting.length ≤ cfg.width
  skipped : (skippedSymbols tr).length ≤ cfg.width * endings tr
  lost : (lostTicks tr).length ≤ endings tr
  volumes : ∀ symbol, volumesOf symbol (sentTicks tr ++ flying) =
    Counter.increases none (dayVolumes symbol tr)
  baselines : ∀ symbol, polling.lastVolume.lookup symbol = (dayVolumes symbol tr).getLast?
  bounded : ∀ symbol, ∀ v ∈ dayVolumes symbol tr, |v| ≤ volumeBound
  failures : polling.failures = failuresOf tr
  published : polling.published = (acceptedTicks tr).length
  composed : ∀ p ∈ acceptedTicks tr, Composed cfg py p.1 p.2.1 p.2.2
  handed : handedTicks tr = if cfg.observed then readTicks py (acceptedTicks tr) else []

/-- What is known of the tick that Redis has. -/
def PhaseSound (cfg : Config) (py : Json.Printing) : UsPhase → Prop
  | .publishing tick now payload _ => Composed cfg py tick now payload
  | _ => True

structure Sound (cfg : Config) (py : Json.Printing) (s : UsPoller) (tr : List UsEvent) :
    Prop where
  books : Books cfg py s.polling tr s.waiting s.flying
  phase : PhaseSound cfg py s.phase

section
variable {cfg : Config} {py : Json.Printing} {s : UsPoller} {polling : UsPolling}
  {tr : List UsEvent} {waiting : List Text} {flying : List WireTick}

theorem turnsOf_append (tr es : List UsEvent) : turnsOf (tr ++ es) = turnsOf tr ++ turnsOf es :=
  List.filterMap_append

theorem acceptedTicks_append (tr es : List UsEvent) :
    acceptedTicks (tr ++ es) = acceptedTicks tr ++ acceptedTicks es := List.filterMap_append

theorem dayVolumes_append (symbol : Text) (tr es : List UsEvent) :
    dayVolumes symbol (tr ++ es) = dayVolumes symbol tr ++ dayVolumes symbol es :=
  List.filterMap_append

theorem sentTicks_append (tr es : List UsEvent) :
    sentTicks (tr ++ es) = sentTicks tr ++ sentTicks es := List.filterMap_append

theorem volumesOf_append (symbol : Text) (xs ys : List WireTick) :
    volumesOf symbol (xs ++ ys) = volumesOf symbol xs ++ volumesOf symbol ys := by
  rw [volumesOf, List.filter_append, List.map_append]
  rfl

/-- What the books of a run become by the events of a step that begins no batch. -/
theorem Books.extend {polling' : UsPolling} {es : List UsEvent} {waiting' : List Text}
    {flying' : List WireTick} (h : Books cfg py polling tr waiting flying)
    (turns : turnsOf es ++ waiting' = waiting) (cursor : polling'.cursor = polling.cursor)
    (skipped : (skippedSymbols es).length ≤ cfg.width * endings es)
    (lost : (lostTicks es).length ≤ endings es)
    (volumes : ∀ symbol, volumesOf symbol (sentTicks es ++ flying') =
      volumesOf symbol flying ++
        Counter.increases (polling.lastVolume.lookup symbol) (dayVolumes symbol es))
    (baselines : ∀ symbol, polling'.lastVolume.lookup symbol =
      (dayVolumes symbol es).getLast?.or (polling.lastVolume.lookup symbol))
    (bounded : ∀ symbol, ∀ v ∈ dayVolumes symbol es, |v| ≤ volumeBound)
    (failures : polling'.failures = polling.failures + failuresOf es)
    (published : polling'.published = polling.published + (acceptedTicks es).length)
    (composed : ∀ p ∈ acceptedTicks es, Composed cfg py p.1 p.2.1 p.2.2)
    (handed : handedTicks es = if cfg.observed then readTicks py (acceptedTicks es) else []) :
    Books cfg py polling' (tr ++ es) waiting' flying' := by
  have hturns : turnsOf (tr ++ es) ++ waiting' = turnsOf tr ++ waiting := by
    rw [turnsOf_append, List.append_assoc, turns]
  have hendings : endings (tr ++ es) = endings tr + endings es := List.countP_append
  refine ⟨?_, ?_, ?_, ?_, ?_, ?_, ?_, ?_, ?_, ?_, ?_, ?_⟩
  · rw [hturns]
    exact h.rotation
  · rw [hturns, cursor]
    exact h.cursor
  · have hbatch := h.batch
    rw [← turns, List.length_append] at hbatch
    omega
  · have happend : skippedSymbols (tr ++ es) = skippedSymbols tr ++ skippedSymbols es :=
      List.filterMap_append
    rw [happend, List.length_append, hendings, Nat.mul_add]
    exact Nat.add_le_add h.skipped skipped
  · have happend : lostTicks (tr ++ es) = lostTicks tr ++ lostTicks es := List.filterMap_append
    rw [happend, List.length_append, hendings]
    exact Nat.add_le_add h.lost lost
  · intro symbol
    have hbefore := h.volumes symbol
    rw [volumesOf_append] at hbefore
    rw [sentTicks_append, List.append_assoc, volumesOf_append, volumes, ← List.append_assoc,
      hbefore, dayVolumes_append, Counter.increases_append, Option.or_none, ← h.baselines]
  · intro symbol
    rw [baselines, h.baselines, dayVolumes_append, List.getLast?_append]
  · intro symbol v hv
    rw [dayVolumes_append] at hv
    exact (List.mem_append.mp hv).elim (h.bounded symbol v) (bounded symbol v)
  · rw [failures, h.failures]
    exact List.countP_append.symm
  · rw [published, h.published, acceptedTicks_append, List.length_append]
  · intro p hp
    rw [acceptedTicks_append] at hp
    exact (List.mem_append.mp hp).elim (h.composed p) (composed p)
  · have happend : handedTicks (tr ++ es) = handedTicks tr ++ handedTicks es :=
      List.filterMap_append
    have hread (xs ys : List (WireTick × UtcTime × Text)) :
        readTicks py (xs ++ ys) = readTicks py xs ++ readTicks py ys := List.filterMap_append
    rw [happend, h.handed, handed, acceptedTicks_append, hread]
    cases cfg.observed with
    | true => rfl
    | false => rfl

/-- A task that ends leaves the symbols of its batch skipped and the tick at Redis lost. -/
theorem Books.finish (h : Books cfg py polling tr waiting flying) (hflying : flying.length ≤ 1)
    {event : UsEvent} (hevent : event = .halted ∨ ∃ e, event = .failed e) :
    Books cfg py polling (tr ++ event :: leaves flying waiting) [] [] := by
  have hturns : turnsOf (event :: leaves flying waiting) = waiting := by
    rcases hevent with rfl | ⟨e, rfl⟩ <;>
      simp [turnsOf, leaves, List.filterMap_map]
  have hskipped : skippedSymbols (event :: leaves flying waiting) = waiting := by
    rcases hevent with rfl | ⟨e, rfl⟩ <;>
      simp [skippedSymbols, leaves, List.filterMap_map]
  have hlost : lostTicks (event :: leaves flying waiting) = flying := by
    rcases hevent with rfl | ⟨e, rfl⟩ <;>
      simp [lostTicks, leaves, List.filterMap_map]
  have hsent : sentTicks (event :: leaves flying waiting) = flying := by
    rcases hevent with rfl | ⟨e, rfl⟩ <;>
      simp [sentTicks, leaves, List.filterMap_map]
  have hendings : endings (event :: leaves flying waiting) = 1 := by
    rcases hevent with rfl | ⟨e, rfl⟩ <;>
      simp [endings, leaves, List.countP_map, Function.comp_def]
  have hvolumes (symbol : Text) : dayVolumes symbol (event :: leaves flying waiting) = [] := by
    rcases hevent with rfl | ⟨e, rfl⟩ <;>
      simp [dayVolumes, leaves, List.filterMap_map]
  have hfailures : failuresOf (event :: leaves flying waiting) = 0 := by
    rcases hevent with rfl | ⟨e, rfl⟩ <;>
      simp [failuresOf, leaves, List.countP_map, Function.comp_def]
  have haccepted : acceptedTicks (event :: leaves flying waiting) = [] := by
    rcases hevent with rfl | ⟨e, rfl⟩ <;>
      simp [acceptedTicks, leaves, List.filterMap_map]
  have hhanded : handedTicks (event :: leaves flying waiting) = [] := by
    rcases hevent with rfl | ⟨e, rfl⟩ <;>
      simp [handedTicks, leaves, List.filterMap_map]
  refine h.extend ?_ rfl ?_ ?_ ?_ ?_ ?_ ?_ ?_ ?_ ?_
  · rw [hturns, List.append_nil]
  · rw [hskipped, hendings, Nat.mul_one]
    exact h.batch
  · rw [hlost, hendings]
    exact hflying
  · intro symbol
    rw [hsent, hvolumes, List.append_nil]
    exact (List.append_nil _).symm
  · intro symbol
    rw [hvolumes]
    rfl
  · intro symbol
    rw [hvolumes]
    exact List.forall_mem_nil _
  · rw [hfailures]
    rfl
  · rw [haccepted]
    rfl
  · rw [haccepted]
    exact List.forall_mem_nil _
  · rw [hhanded, haccepted, readTicks, List.filterMap_nil, ite_self]

/-- An answer that makes no tick. -/
theorem Books.pass {symbol : Text} {rest : List Text} {polling' : UsPolling}
    {answer : Except Exn (Option Meta)} (h : Books cfg py polling tr (symbol :: rest) [])
    (hnone : dayVolume? answer = none) (hcursor : polling'.cursor = polling.cursor)
    (hbaselines : polling'.lastVolume = polling.lastVolume)
    (hpublished : polling'.published = polling.published)
    (hfailures : polling'.failures = polling.failures + failuresOf [.answered symbol answer]) :
    Books cfg py polling' (tr ++ [.answered symbol answer]) rest [] := by
  have hvolumes (symbol' : Text) : dayVolumes symbol' [.answered symbol answer] = [] := by
    simp [dayVolumes, hnone]
  refine h.extend rfl hcursor (Nat.zero_le _) (Nat.zero_le _) ?_ ?_ ?_ hfailures hpublished
    (List.forall_mem_nil _) (ite_self _).symm
  · intro symbol'
    rw [hvolumes]
    rfl
  · intro symbol'
    rw [hvolumes, hbaselines]
    rfl
  · intro symbol'
    rw [hvolumes]
    exact List.forall_mem_nil _

/-- An answer that makes a tick: its day volume is the new baseline, and the tick carries what was
added to the old one. -/
theorem Books.quote {symbol : Text} {rest : List Text} {m : Meta} {quote : UsPolling.Quote}
    (h : Books cfg py polling tr (symbol :: rest) []) (hquote : m.quote = .ok (some quote))
    (hbounded : |quote.dayVolume| ≤ volumeBound) (now : UtcTime) :
    Books cfg py { polling with lastVolume := polling.lastVolume.insert symbol quote.dayVolume }
      (tr ++ [.answered symbol (.ok (some m))]) rest
      [quote.tick polling.lastVolume now symbol] := by
  have hday : dayVolume? (.ok (some m)) = some quote.dayVolume := by rw [dayVolume?, hquote]
  have hvolumes (symbol' : Text) : dayVolumes symbol' [.answered symbol (.ok (some m))] =
      if symbol = symbol' then [quote.dayVolume] else [] := by
    split <;> simp_all [dayVolumes]
  refine h.extend rfl rfl (Nat.zero_le _) (Nat.zero_le _) ?_ ?_ ?_ rfl rfl
    (List.forall_mem_nil _) (ite_self _).symm
  · intro symbol'
    rw [hvolumes]
    by_cases hsymbol : symbol = symbol'
    · subst hsymbol
      rw [if_pos rfl]
      simp [volumesOf, sentTicks, UsPolling.Quote.tick, Counter.increases]
      cases polling.lastVolume.lookup symbol <;> rfl
    · rw [if_neg hsymbol]
      simp [volumesOf, sentTicks, UsPolling.Quote.tick, Counter.increases, hsymbol]
  · intro symbol'
    rw [hvolumes]
    by_cases hsymbol : symbol = symbol'
    · subst hsymbol
      rw [if_pos rfl]
      exact Finmap.lookup_insert _
    · rw [if_neg hsymbol]
      exact Finmap.lookup_insert_of_ne _ (Ne.symm hsymbol)
  · intro symbol' v hv
    rw [hvolumes] at hv
    split at hv
    · rwa [List.mem_singleton.mp hv]
    · cases hv

/-- Only symbols of the list have a turn. -/
theorem Books.turns_mem (h : Books cfg py polling tr waiting flying) {symbol : Text}
    (hsymbol : symbol ∈ turnsOf tr ++ waiting) : symbol ∈ cfg.symbols := by
  rw [h.rotation] at hsymbol
  obtain ⟨i, hi, rfl⟩ := List.mem_map.mp hsymbol
  have hlt := RoundRobin.turns_lt (List.length_pos_iff.mpr cfg.symbols_ne) hi
  rw [cfg.getD_symbols hlt]
  exact List.getElem_mem hlt

/-- The next batch goes on where the last one ended. -/
theorem Books.begin (h : Books cfg py polling tr [] []) :
    Books cfg py (polling.advance cfg) tr (cfg.batch polling.cursor) [] := by
  have hcursor := h.cursor
  have hrotation := h.rotation
  rw [List.append_nil] at hcursor hrotation
  have hlength : (cfg.batch polling.cursor).length = cfg.width := by
    rw [Config.batch_eq, List.length_map, Config.positions_eq, RoundRobin.length_turns]
  have hturns : turnsOf tr ++ cfg.batch polling.cursor =
      cfg.rotation ((turnsOf tr).length + cfg.width) := by
    rw [Config.rotation, RoundRobin.turns_append, List.map_append, ← Config.rotation, ← hrotation,
      Config.batch_eq, Config.positions_eq, hcursor, RoundRobin.turns_mod, Nat.zero_add]
  have hfull : (turnsOf tr ++ cfg.batch polling.cursor).length =
      (turnsOf tr).length + cfg.width := by
    rw [List.length_append, hlength]
  refine ⟨?_, ?_, hlength.le, h.skipped, h.lost, h.volumes, h.baselines, h.bounded, h.failures,
    h.published, h.composed, h.handed⟩
  · rw [hfull]
    exact hturns
  · rw [hfull, UsPolling.advance_cursor, hcursor, Nat.mod_add_mod]

theorem truncate_bound {q : ℚ} (h : |q| < 2 ^ (1024 : Int)) :
    |UsPolling.truncate q| ≤ volumeBound := by
  have hbound : (volumeBound : ℚ) = 2 ^ (1024 : Int) := by
    rw [volumeBound, Int.cast_pow, Int.cast_ofNat, zpow_ofNat]
  obtain ⟨hlow, hhigh⟩ := abs_lt.mp h
  rw [← hbound] at hlow hhigh
  rw [UsPolling.truncate, abs_le]
  split
  · rename_i hneg
    have hfloor : ⌊-q⌋ ≤ volumeBound :=
      Int.cast_le.mp ((Int.floor_le (-q)).trans (neg_le.mpr hlow.le))
    have hnonneg : 0 ≤ ⌊-q⌋ := Int.floor_nonneg.mpr (neg_nonneg.mpr hneg.le)
    omega
  · rename_i hpos
    have hfloor : ⌊q⌋ ≤ volumeBound := Int.cast_le.mp ((Int.floor_le q).trans hhigh.le)
    have hnonneg : 0 ≤ ⌊q⌋ := Int.floor_nonneg.mpr (not_lt.mp hpos)
    omega

/-- A day volume that is read is the integer of a finite float. -/
theorem dayVolume_bound {m : Meta} (hm : (Json.obj m).Binary) {quote : UsPolling.Quote}
    (hquote : m.quote = .ok (some quote)) : |quote.dayVolume| ≤ volumeBound := by
  have hday := UsPolling.quote_dayVolume hquote
  cases hreported : m.reported? with
  | none =>
      rw [UsPolling.dayVolume_unreported hreported hday, abs_zero, volumeBound]
      positivity
  | some v =>
      obtain ⟨q, hq, htruncated⟩ := UsPolling.dayVolume_reported hm hreported hday
      rw [htruncated]
      exact truncate_bound (isDyadic_of_ofRat hq).range

theorem tickVolume_bound {lastSeen : Option Int} {day : Int} (hday : |day| ≤ volumeBound)
    (hlast : ∀ v ∈ lastSeen, |v| ≤ volumeBound) :
    0 ≤ UsPolling.tickVolume lastSeen day ∧
      UsPolling.tickVolume lastSeen day ≤ 2 * volumeBound := by
  refine ⟨UsPolling.tickVolume_nonneg lastSeen day, ?_⟩
  have hdayBounds := abs_le.mp hday
  cases lastSeen with
  | none =>
      rw [UsPolling.tickVolume]
      omega
  | some last =>
      have hlastBounds := abs_le.mp (hlast last rfl)
      rw [UsPolling.tickVolume]
      split <;> omega

/-! ### Every step -/

/-- The tick of a quote that was read. -/
theorem Books.composed_tick {symbol : Text} {rest : List Text} {m : Meta}
    {quote : UsPolling.Quote} (h : Books cfg py polling tr (symbol :: rest) [])
    (hm : (Json.obj m).Binary) (hquote : m.quote = .ok (some quote)) (now : UtcTime)
    {payload : Text}
    (hdumps : (quote.tick polling.lastVolume now symbol).toJson.dumps py = .ok payload) :
    Composed cfg py (quote.tick polling.lastVolume now symbol) now payload where
  symbol := h.turns_mem (List.mem_append_right _ List.mem_cons_self)
  ts := rfl
  price _ := Python.Float.isDyadic_roundTo
  volume := by
    refine tickVolume_bound (dayVolume_bound hm hquote) fun v hv => ?_
    rw [h.baselines] at hv
    exact h.bounded symbol v (List.mem_of_getLast? hv)
  message := hdumps

theorem Books.next {rest : List Text} (h : Books cfg py s.polling tr rest []) :
    Sound cfg py (s.next rest) tr := by
  cases rest with
  | nil => exact ⟨h, trivial⟩
  | cons symbol rest => exact ⟨h, trivial⟩

theorem Books.crash (h : Books cfg py s.polling tr waiting flying) (hflying : flying.length ≤ 1)
    (e : Exn) :
    Sound cfg py (s.crash e flying waiting).1 (tr ++ (s.crash e flying waiting).2) :=
  ⟨h.finish hflying (.inr ⟨e, rfl⟩), trivial⟩

theorem Books.offer {tick : WireTick} {now : UtcTime} {rest : List Text}
    (h : Books cfg py s.polling tr rest [tick])
    (hcomposed : ∀ payload, tick.toJson.dumps py = .ok payload →
      Composed cfg py tick now payload) :
    Sound cfg py (s.offer py tick now rest).1 (tr ++ (s.offer py tick now rest).2) := by
  rw [UsPoller.offer]
  cases hdumps : tick.toJson.dumps py with
  | ok payload =>
      rw [List.append_nil]
      exact ⟨h, hcomposed payload hdumps⟩
  | error e => exact h.crash le_rfl e

/-- An answer is taken: it is passed over, or it makes a tick, or the task ends. -/
theorem Books.take {symbol : Text} {rest : List Text}
    (h : Books cfg py s.polling tr (symbol :: rest) []) (now : UtcTime)
    {answer : Except Exn (Option Meta)}
    (hbinary : ∀ m, answer = .ok (some m) → (Json.obj m).Binary) :
    Sound cfg py (s.take py symbol now rest answer).1
      (tr ++ .answered symbol answer :: (s.take py symbol now rest answer).2) := by
  cases answer with
  | error e => exact Books.next (h.pass rfl rfl rfl rfl rfl)
  | ok m? =>
      cases m? with
      | none => exact Books.next (h.pass rfl rfl rfl rfl rfl)
      | some m =>
          have hpassed (hday : dayVolume? (.ok (some m)) = none) :
              Books cfg py s.polling (tr ++ [.answered symbol (.ok (some m))]) rest [] :=
            h.pass hday rfl rfl rfl rfl
          rw [UsPoller.take]
          cases hquote : m.quote with
          | error e =>
              rw [UsPolling.quoteToTick_of_error hquote]
              have hcrash := (hpassed (by rw [dayVolume?, hquote])).crash (Nat.zero_le _) e
              rwa [List.append_assoc] at hcrash
          | ok quote? =>
              cases quote? with
              | none =>
                  rw [UsPolling.quoteToTick_of_none hquote]
                  exact Books.next (hpassed (by rw [dayVolume?, hquote]))
              | some quote =>
                  rw [UsPolling.quoteToTick_of_quote hquote]
                  have hm := hbinary m rfl
                  have hquoted := h.quote hquote (dayVolume_bound hm hquote) now
                  have hoffer := Books.offer (s := { s with polling := { s.polling with
                    lastVolume := s.polling.lastVolume.insert symbol quote.dayVolume } })
                    hquoted fun payload => h.composed_tick hm hquote now
                  rwa [List.append_assoc] at hoffer

/-- Redis takes the tick, and the observer is handed what the dictionary reads as. -/
theorem Books.accept {tick : WireTick} {now : UtcTime} {payload : Text} {rest : List Text}
    (h : Books cfg py s.polling tr rest [tick]) (hcomposed : Composed cfg py tick now payload) :
    Sound cfg py (s.accept cfg py tick rest).1
      (tr ++ .accepted tick now payload :: (s.accept cfg py tick rest).2) := by
  let counted : UsPolling := { s.polling with published := s.polling.published + 1 }
  have hone (es : List UsEvent) (hes : es = [] ∨ ∃ t, es = [.handed t])
      (hhanded : handedTicks es =
        if cfg.observed then (dictToTick py tick.toJson).toOption.toList else []) :
      Books cfg py counted (tr ++ .accepted tick now payload :: es) rest [] := by
    have hread : readTicks py [(tick, now, payload)] =
        (dictToTick py tick.toJson).toOption.toList := by
      cases hdict : dictToTick py tick.toJson <;> simp [readTicks, hdict, Except.toOption]
    have haccepted : acceptedTicks (.accepted tick now payload :: es) = [(tick, now, payload)] := by
      rcases hes with rfl | ⟨t, rfl⟩ <;> rfl
    have hvolumes (symbol : Text) : dayVolumes symbol (.accepted tick now payload :: es) = [] := by
      rcases hes with rfl | ⟨t, rfl⟩ <;> rfl
    have hsent : sentTicks (.accepted tick now payload :: es) = [tick] := by
      rcases hes with rfl | ⟨t, rfl⟩ <;> rfl
    refine h.extend ?_ rfl ?_ ?_ ?_ ?_ ?_ ?_ ?_ ?_ ?_
    · rcases hes with rfl | ⟨t, rfl⟩ <;> rfl
    · rcases hes with rfl | ⟨t, rfl⟩ <;> exact Nat.zero_le _
    · rcases hes with rfl | ⟨t, rfl⟩ <;> exact Nat.zero_le _
    · intro symbol
      rw [hsent, hvolumes, List.append_nil]
      exact (List.append_nil _).symm
    · intro symbol
      rw [hvolumes]
      rfl
    · intro symbol
      rw [hvolumes]
      exact List.forall_mem_nil _
    · rcases hes with rfl | ⟨t, rfl⟩ <;> rfl
    · rw [haccepted]
      rfl
    · rw [haccepted]
      exact List.forall_mem_singleton.mpr hcomposed
    · rw [haccepted, hread]
      exact hhanded
  rw [UsPoller.accept]
  cases hobserved : cfg.observed with
  | false => exact Books.next (hone [] (.inl rfl) (by rw [hobserved]; rfl))
  | true =>
      rw [if_pos rfl]
      cases hdict : dictToTick py tick.toJson with
      | ok t =>
          refine ⟨hone [.handed t] (.inr ⟨t, rfl⟩) ?_, trivial⟩
          rw [hobserved, if_pos rfl, hdict]
          rfl
      | error e =>
          refine Books.next (hone [] (.inl rfl) ?_)
          rw [hobserved, if_pos rfl, hdict]
          rfl

/-- An exception that comes out of `stop()` is in no book. -/
theorem Books.raise (h : Books cfg py polling tr waiting flying) (e : Exn) :
    Books cfg py polling (tr ++ [.raised e]) waiting flying := by
  refine h.extend rfl rfl (Nat.zero_le _) (Nat.zero_le _) ?_ (fun _ => rfl)
    (fun _ => List.forall_mem_nil _) rfl rfl (List.forall_mem_nil _) (ite_self _).symm
  exact fun symbol => (List.append_nil _).symm

theorem Sound.halt (h : Sound cfg py s tr) : Sound cfg py s.halt.1 (tr ++ s.halt.2) := by
  have hstopped (hflying : s.flying.length ≤ 1) :
      Sound cfg py { s with phase := .stopped } (tr ++ .halted :: leaves s.flying s.waiting) :=
    ⟨h.books.finish hflying (.inl rfl), trivial⟩
  rw [UsPoller.halt]
  cases hphase : s.phase with
  | crashed e => exact ⟨h.books.raise e, h.phase⟩
  | stopped | spawned | sleeping => exact hstopped (by rw [flying, hphase]; exact Nat.zero_le _)
  | fetching symbol rest => exact hstopped (by rw [flying, hphase]; exact Nat.zero_le _)
  | observing rest => exact hstopped (by rw [flying, hphase]; exact Nat.zero_le _)
  | publishing tick now payload rest => exact hstopped (by rw [flying, hphase]; exact le_rfl)

end

theorem Sound.step {cfg : Config} {py : Worker.Interpreter} {s s' : UsPoller}
    {tr es : List UsEvent} {l : UsLabel} (h : Sound cfg py.toPrinting s tr)
    (hstep : s.step cfg py l = some (s', es)) : Sound cfg py.toPrinting s' (tr ++ es) := by
  have hbooks {waiting : List Text} {flying : List WireTick} (hwaiting : s.waiting = waiting)
      (hflying : s.flying = flying) : Books cfg py.toPrinting s.polling tr waiting flying := by
    rw [← hwaiting, ← hflying]
    exact h.books
  cases l with
  | start =>
      simp only [UsPoller.step, Option.some.injEq, Prod.mk.injEq] at hstep
      obtain ⟨rfl, rfl⟩ := hstep
      rw [List.append_nil]
      split
      · exact h
      · rename_i hidle
        have hnone : s.waiting = [] ∧ s.flying = [] := by
          rw [isRunning] at hidle
          rw [waiting, flying]
          cases hphase : s.phase <;> simp [hphase] at hidle ⊢
        exact ⟨hbooks hnone.1 hnone.2, trivial⟩
  | stop =>
      have hhalt := h.halt
      rwa [Option.some.inj hstep] at hhalt
  | wake =>
      have hbegins (hwaiting : s.waiting = []) (hflying : s.flying = []) :
          Sound cfg py.toPrinting (s.beginBatch cfg) (tr ++ []) := by
        rw [List.append_nil]
        exact Books.next (hbooks hwaiting hflying).begin
      simp only [UsPoller.step] at hstep
      split at hstep
      · rename_i hphase
        cases hstep
        exact hbegins (by rw [waiting, hphase]) (by rw [flying, hphase])
      · rename_i hphase
        cases hstep
        exact hbegins (by rw [waiting, hphase]) (by rw [flying, hphase])
      · cases hstep
  | fetched upstream now =>
      simp only [UsPoller.step] at hstep
      split at hstep
      · rename_i symbol rest hphase
        cases hstep
        exact (hbooks (by rw [waiting, hphase]) (by rw [flying, hphase])).take now
          fun m hm => UsPolling.fetchQuote_binary hm
      · cases hstep
  | published answer =>
      simp only [UsPoller.step] at hstep
      split at hstep
      · rename_i tick now payload rest hphase
        have hready := h.phase
        rw [hphase] at hready
        have hflight := hbooks (by rw [waiting, hphase]) (by rw [flying, hphase])
        cases answer with
        | ok u =>
            cases hstep
            exact hflight.accept hready
        | error e =>
            have hcrash := hflight.crash le_rfl e
            rwa [Option.some.inj hstep] at hcrash
      · cases hstep
  | observed answer =>
      simp only [UsPoller.step] at hstep
      split at hstep
      · rename_i rest hphase
        cases hstep
        rw [List.append_nil]
        exact Books.next (hbooks (by rw [waiting, hphase]) (by rw [flying, hphase]))
      · cases hstep

theorem initial_sound (cfg : Config) (py : Json.Printing) : Sound cfg py {} [] where
  books := {
    rotation := rfl
    cursor := (Nat.zero_mod _).symm
    batch := Nat.zero_le _
    skipped := Nat.zero_le _
    lost := Nat.zero_le _
    volumes _ := rfl
    baselines _ := Finmap.lookup_empty _
    bounded _ := List.forall_mem_nil _
    failures := rfl
    published := rfl
    composed := List.forall_mem_nil _
    handed := (ite_self _).symm }
  phase := trivial

theorem run_sound {cfg : Config} {py : Worker.Interpreter} {s : UsPoller} {tr : List UsEvent}
    {ls : List UsLabel} (h : (machine cfg py).run {} ls = some (s, tr)) :
    Sound cfg py.toPrinting s tr :=
  Machine.run_invariant (fun _ _ _ _ _ hsound hstep => hsound.step hstep)
    (initial_sound cfg py.toPrinting) h

/-! ### What every run keeps -/

/-- The turns of a symbol are those of its position. -/
theorem count_rotation {cfg : Config} (hnodup : cfg.symbols.Nodup) (n : Nat) {i : Nat}
    (hi : i < cfg.symbols.length) :
    (cfg.rotation n).count cfg.symbols[i] =
      (RoundRobin.turns cfg.symbols.length 0 n).count i := by
  rw [Config.rotation, List.count_eq_countP, List.countP_map, List.count_eq_countP]
  apply List.countP_congr
  intro j hj
  have hlt := RoundRobin.turns_lt (List.length_pos_iff.mpr cfg.symbols_ne) hj
  simp only [Function.comp_apply, cfg.getD_symbols hlt, beq_iff_eq]
  exact hnodup.getElem_inj_iff

theorem Books.fair {cfg : Config} {py : Json.Printing} {polling : UsPolling} {tr : List UsEvent}
    {waiting : List Text} {flying : List WireTick}
    (h : Books cfg py polling tr waiting flying) (hnodup : cfg.symbols.Nodup) {a b : Text}
    (ha : a ∈ cfg.symbols) (hb : b ∈ cfg.symbols) :
    (turnsOf tr ++ waiting).count a ≤ (turnsOf tr ++ waiting).count b + 1 := by
  obtain ⟨i, hi, rfl⟩ := List.mem_iff_getElem.mp ha
  obtain ⟨j, hj, rfl⟩ := List.mem_iff_getElem.mp hb
  rw [h.rotation, count_rotation hnodup _ hi, count_rotation hnodup _ hj]
  exact RoundRobin.count_turns_le _ _ hi hj

/-- A whole rotation has a turn for every symbol. -/
theorem Books.everyone {cfg : Config} {py : Json.Printing} {polling : UsPolling}
    {tr : List UsEvent} {waiting : List Text} {flying : List WireTick}
    (h : Books cfg py polling tr waiting flying)
    (hlength : cfg.symbols.length ≤ (turnsOf tr ++ waiting).length) {a : Text}
    (ha : a ∈ cfg.symbols) : a ∈ turnsOf tr ++ waiting := by
  obtain ⟨i, hi, rfl⟩ := List.mem_iff_getElem.mp ha
  rw [h.rotation]
  exact List.mem_map.mpr ⟨i, RoundRobin.mem_turns 0 hlength hi, cfg.getD_symbols hi⟩

/-- The symbols have their turns in the order of the list, around its end, whatever stops or fails
in between: what a task that ends leaves of its batch is skipped, and the next one goes on behind
it. Of distinct symbols none is ever two turns ahead of another. -/
theorem usRun_rotation {cfg : Config} {py : Worker.Interpreter} {ls : List UsLabel} {s : UsPoller}
    {tr : List UsEvent} (h : (machine cfg py).run {} ls = some (s, tr)) :
    turnsOf tr ++ s.waiting = cfg.rotation (turnsOf tr ++ s.waiting).length ∧
      s.polling.cursor = (turnsOf tr ++ s.waiting).length % cfg.symbols.length ∧
      s.waiting.length ≤ cfg.width ∧
      (skippedSymbols tr).length ≤ cfg.width * endings tr ∧
      (cfg.symbols.Nodup → ∀ a ∈ cfg.symbols, ∀ b ∈ cfg.symbols,
        (turnsOf tr ++ s.waiting).count a ≤ (turnsOf tr ++ s.waiting).count b + 1) := by
  have hbooks := (run_sound h).books
  exact ⟨hbooks.rotation, hbooks.cursor, hbooks.batch, hbooks.skipped,
    fun hnodup a ha b hb => hbooks.fair hnodup ha hb⟩

/-- The ticks of a symbol carry the increases of its day volumes, from the first start on and over
every restart. Where these do not fall, the volumes add up to the way from the first to the last;
what is missing of it on the channel is the volume of the ticks that Redis had when a task ended,
one at most for each time. -/
theorem usRun_volumes {cfg : Config} {py : Worker.Interpreter} {ls : List UsLabel} {s : UsPoller}
    {tr : List UsEvent} (h : (machine cfg py).run {} ls = some (s, tr)) (symbol : Text) :
    volumesOf symbol (sentTicks tr ++ s.flying) =
        Counter.increases none (dayVolumes symbol tr) ∧
      ((dayVolumes symbol tr).Pairwise (· ≤ ·) →
        (volumesOf symbol (sentTicks tr ++ s.flying)).sum =
          Counter.span (dayVolumes symbol tr)) ∧
      (lostTicks tr).length ≤ endings tr ∧
      s.polling.published = (acceptedTicks tr).length ∧
      s.polling.failures = failuresOf tr := by
  have hbooks := (run_sound h).books
  refine ⟨hbooks.volumes symbol, ?_, hbooks.lost, hbooks.published, hbooks.failures⟩
  intro hmonotone
  rw [hbooks.volumes symbol]
  exact Counter.sum_increases_readings hmonotone

/-! ### What the worker reads -/

theorem Composed.made {cfg : Config} {py : Json.Printing} {tick : WireTick} {now : UtcTime}
    {payload : Text} (h : Composed cfg py tick now payload)
    (hunicode : ∀ symbol ∈ cfg.symbols, Json.IsUnicode symbol) : tick.Made now where
  symbol := hunicode _ h.symbol
  ts := h.ts
  price := h.price
  volume := by
    have hsmall : 2 * volumeBound < 10 ^ 309 := by decide +kernel
    have hbounds := h.volume
    have hlt : tick.volume.natAbs < 10 ^ 309 := by
      have hcast : ((10 ^ 309 : Nat) : Int) = 10 ^ 309 := by rw [Nat.cast_pow]; rfl
      zify
      rw [abs_of_nonneg hbounds.1]
      exact hbounds.2.trans_lt hsmall
    exact (length_natDigits_le (by decide) hlt).trans (by decide)

/-- The observer is handed, in order, the ticks that the worker takes from the messages that Redis
took. -/
theorem usRun_feeds {cfg : Config} {py : Worker.Interpreter} (hobserved : cfg.observed = true)
    (hunicode : ∀ symbol ∈ cfg.symbols, Json.IsUnicode symbol) (hloads : 1 ≤ py.loadsLimit)
    {ls : List UsLabel} {s : UsPoller} {tr : List UsEvent}
    (h : (machine cfg py).run {} ls = some (s, tr)) {msgs : List Worker.Message}
    (hmsgs : msgs.map Worker.Message.raw = (acceptedTicks tr).map fun p => p.2.2) :
    msgs.flatMap (heard py) = handedTicks tr := by
  have hbooks := (run_sound h).books
  have hmade : ∀ p ∈ acceptedTicks tr, p.1.Made p.2.1 :=
    fun p hp => (hbooks.composed p hp).made hunicode
  have hread : List.Forall₂ (fun p msg => Worker.readTick py msg = .ok (p.1.arrived p.2.1))
      (acceptedTicks tr) msgs := by
    have hpaired : List.Forall₂ (fun p msg => p.2.2 = msg.raw) (acceptedTicks tr) msgs := by
      refine List.forall₂_map_left_iff.mp (List.forall₂_map_right_iff.mp ?_)
      rw [hmsgs]
      exact List.forall₂_refl _
    refine ((List.forall₂_and_left _ _).mpr ⟨hbooks.composed, hpaired⟩).imp ?_
    intro p msg ⟨hcomposed, hraw⟩
    exact UsPolling.WireTick.readTick_toJson hloads (hcomposed.made hunicode)
      (hraw ▸ hcomposed.message)
  rw [hbooks.handed, if_pos hobserved, heard_of_read hread, readTicks]
  apply List.filterMap_congr
  intro p hp
  rw [UsPolling.WireTick.dictToTick_toJson _ (hmade p hp)]
  cases p.1.arrived p.2.1 with
  | none => rfl
  | some tick => rfl

/-! ### Two shares -/

def watchedConfig : Config := { UsPolling.pairConfig with observed := true }

/-- A price of 170 with a day volume. -/
def volumeAnswer (volume : String) : UsPolling.Upstream :=
  .response 200 (some (text ("\x7b\"chart\": \x7b\"result\": [\x7b\"meta\": " ++
    "\x7b\"regularMarketPrice\": 170, \"regularMarketVolume\": " ++ volume ++
    "\x7d\x7d]\x7d\x7d")))

def openingTime : UtcTime := ⟨sampleDate, Time.midnight⟩

/-- The first share trades; the second is not asked for before the task is stopped. After the
restart the first has traded thirty more. -/
def restartedSession : List UsLabel :=
  [.start, .wake, .fetched (volumeAnswer "100") openingTime, .published (.ok ()),
    .observed (.ok ()), .stop, .start, .wake, .fetched (volumeAnswer "130") openingTime,
    .published (.ok ())]

theorem restartedSession_run :
    ((machine watchedConfig Worker.samplePython).run {} restartedSession).isSome = true := by
  decide +kernel

/-- The state and the events after it. -/
def restartedOutcome : UsPoller × List UsEvent := Option.get _ restartedSession_run

theorem restartedOutcome_run :
    (machine watchedConfig Worker.samplePython).run {} restartedSession =
      some (restartedOutcome.1, restartedOutcome.2) :=
  (Option.some_get restartedSession_run).symm

theorem restartedSession_rotation :
    turnsOf restartedOutcome.2 ++ restartedOutcome.1.waiting =
        watchedConfig.rotation (turnsOf restartedOutcome.2 ++ restartedOutcome.1.waiting).length ∧
      turnsOf restartedOutcome.2 = [text "AAPL", text "MSFT", text "AAPL"] :=
  ⟨(usRun_rotation restartedOutcome_run).1, by decide +kernel⟩

theorem restartedSession_volumes :
    (volumesOf (text "AAPL") (sentTicks restartedOutcome.2 ++ restartedOutcome.1.flying)).sum =
        Counter.span (dayVolumes (text "AAPL") restartedOutcome.2) ∧
      dayVolumes (text "AAPL") restartedOutcome.2 = [100, 130] := by
  have hvolumes : dayVolumes (text "AAPL") restartedOutcome.2 = [100, 130] := by decide +kernel
  refine ⟨(usRun_volumes restartedOutcome_run _).2.1 ?_, hvolumes⟩
  rw [hvolumes]
  decide

theorem restartedSession_feeds :
    ((acceptedTicks restartedOutcome.2).map fun p => Worker.Message.str p.2.2).flatMap
        (heard Worker.samplePython) = handedTicks restartedOutcome.2 ∧
      (handedTicks restartedOutcome.2).length = 2 := by
  refine ⟨usRun_feeds rfl (by decide) (by decide) restartedOutcome_run ?_, by decide +kernel⟩
  rw [List.map_map]
  rfl

end UsPoller
end NexusBackend
