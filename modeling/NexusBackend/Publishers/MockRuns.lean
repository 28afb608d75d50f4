import NexusBackend.Persistence.MarketTick
import NexusBackend.Publishers.MockPublisher

/-!
What holds in every run of `MockPublisher`, with its task started, stopped, crashed and started
again: which ticks and order books it makes, what it counts, and that the observer is handed what
the worker reads from the messages that Redis took.
-/
namespace NexusBackend

open Python Transition

namespace MockPublisher

/-! ### Ticks and order books -/

/-- A float of at least one, or infinite. -/
def AtLeastOne (x : Python.Float) : Prop := x = .inf false ∨ ∃ q, x = .finite q ∧ IsDyadic q ∧ 1 ≤ q

/-- A tick as the publisher makes it. -/
structure TickSound (tick : UsPolling.WireTick) (now : UtcTime) : Prop where
  symbol : tick.symbol ∈ seededTickers
  ts : tick.ts = now.toDateTime.isoformatMilliseconds
  price : AtLeastOne tick.price
  volume : 100 ≤ tick.volume ∧ tick.volume ≤ 10000

/-- An order book of five levels on each side of the price of a tick, a hundred apart. -/
structure QuoteSound (quote : WireQuote) (tick : UsPolling.WireTick) (price : ℚ) : Prop where
  symbol : quote.symbol = tick.symbol
  mid : tick.price = .finite price
  bids : quote.bids.map QuoteLevel.price = (List.range 5).map fun i : Nat => ⌊price⌋ - 100 * (i + 1)
  asks : quote.asks.map QuoteLevel.price = (List.range 5).map fun i : Nat => ⌊price⌋ + 100 * (i + 1)
  volumes : ∀ level ∈ quote.bids ++ quote.asks, 500 ≤ level.volume ∧ level.volume ≤ 5000

theorem isDyadic_one : IsDyadic 1 := isDyadic_zpow (e := 0) (by norm_num) (by norm_num)

theorem floorAtOne_atLeastOne {x : Python.Float} (h : ∀ q, x = .finite q → IsDyadic q) :
    AtLeastOne (floorAtOne x) := by
  rw [floorAtOne]
  split
  · rename_i hlt
    cases x with
    | finite q => exact .inr ⟨q, rfl, h q rfl, (of_decide_eq_true hlt).le⟩
    | inf negative =>
        cases negative with
        | false => exact .inl rfl
        | true => cases hlt
    | nan => cases hlt
  · exact .inr ⟨1, rfl, isDyadic_one, le_rfl⟩

theorem AtLeastOne.roundTo {x : Python.Float} (h : AtLeastOne x) (places : Nat) :
    AtLeastOne (x.roundTo places) := by
  rcases h with rfl | ⟨q, rfl, hq, hone⟩
  · exact .inl rfl
  · obtain ⟨r, hr, hle⟩ := Python.Float.roundTo_ge_one hq hone places
    exact .inr ⟨r, hr, isDyadic_of_ofRat hr, hle⟩

theorem AtLeastOne.isDyadic {x : Python.Float} (h : AtLeastOne x) {q : ℚ} (hx : x = .finite q) :
    IsDyadic q := by
  rcases h with rfl | ⟨r, rfl, hr, -⟩
  · cases hx
  · cases hx
    exact hr

theorem TickSound.made {tick : UsPolling.WireTick} {now : UtcTime} (h : TickSound tick now) :
    tick.Made now where
  symbol := (by decide : ∀ s ∈ seededTickers, Json.IsUnicode s) _ h.symbol
  ts := h.ts
  price _ hq := h.price.isDyadic hq
  volume := by
    have hlt : tick.volume.natAbs < 10 ^ 5 := by
      have := h.volume
      omega
    exact (length_natDigits_le (by decide) hlt).trans (by decide)

/-- Every seeded ticker has a price. -/
structure PricesSound (prices : List (Text × Python.Float)) : Prop where
  keys : prices.map Prod.fst = basePrices.map Prod.fst
  floor : ∀ p ∈ prices, AtLeastOne p.2

theorem basePrices_sound : PricesSound basePrices where
  keys := rfl
  floor p hp := by
    have hbase : ∀ p ∈ basePrices, floorAtOne p.2 = p.2 ∧ p.2.roundTo 0 = p.2 := by decide +kernel
    obtain ⟨hfloor, hround⟩ := hbase p hp
    rw [← hfloor]
    refine floorAtOne_atLeastOne fun q hq => ?_
    rw [hq] at hround
    exact isDyadic_of_ofRat hround

theorem seeded_priced : ∀ s ∈ seededTickers, s ∈ basePrices.map Prod.fst := by decide

/-- The walk goes on from every price. -/
theorem nextTick_ok {prices : List (Text × Python.Float)} (h : PricesSound prices)
    (draw : TickDraw) :
    ∃ prices' tick, nextTick prices draw = .ok (prices', tick) ∧ PricesSound prices' ∧
      TickSound tick draw.now := by
  have hkey : draw.symbol ∈ prices.map Prod.fst := by
    rw [h.keys]
    exact seeded_priced _ draw.seeded
  cases hprice : Json.get? prices draw.symbol with
  | none => exact absurd hkey (Json.get?_eq_none_iff.mp hprice)
  | some price =>
      have hnext : AtLeastOne (floorAtOne (price.mul ((Python.Float.finite 1).add
          (draw.gauss.mul driftStd)))) :=
        floorAtOne_atLeastOne fun q hq => Python.Float.isDyadic_mul hq
      refine ⟨_, _, by rw [nextTick, hprice]; rfl, ⟨?_, ?_⟩,
        ⟨draw.seeded, rfl, hnext.roundTo 2, draw.volume_range⟩⟩
      · rw [Json.keys_setKey_of_mem _ hkey, h.keys]
      · intro p hp
        rcases Json.mem_setKey hp with rfl | hp
        · exact hnext
        · exact h.floor p hp

/-- The book of a tick, which only an infinite price prevents. -/
theorem nextQuote_cases {tick : UsPolling.WireTick} (h : AtLeastOne tick.price)
    (draw : QuoteDraw) :
    (∃ quote price, nextQuote tick.symbol tick.price draw = .ok quote ∧
        QuoteSound quote tick price) ∨
      tick.price = .inf false ∧
        nextQuote tick.symbol tick.price draw = .error ⟨.overflowError, []⟩ := by
  rcases h with hinf | ⟨q, hq, -, hone⟩
  · right
    rw [hinf]
    exact ⟨rfl, rfl⟩
  · left
    have hmid : intOfFloat tick.price = .ok ⌊q⌋ := by
      rw [hq, intOfFloat, if_neg (by linarith)]
    refine ⟨_, q, by rw [nextQuote, hmid]; rfl, rfl, hq, ?_, ?_, ?_⟩
    · rw [List.map_map]
      rfl
    · rw [List.map_map]
      rfl
    · intro level hlevel
      rcases List.mem_append.mp hlevel with hlevel | hlevel
      · obtain ⟨i, -, rfl⟩ := List.mem_map.mp hlevel
        exact draw.bid_range i
      · obtain ⟨i, -, rfl⟩ := List.mem_map.mp hlevel
        exact draw.ask_range i

/-! ### The events of a run -/

def offeredTicks (tr : List MockEvent) : List (UsPolling.WireTick × UtcTime) :=
  tr.filterMap fun
    | .offered tick now => some (tick, now)
    | _ => none

def acceptedTicks (tr : List MockEvent) : List (UsPolling.WireTick × UtcTime) :=
  tr.filterMap fun
    | .accepted tick now => some (tick, now)
    | _ => none

def handedTicks (tr : List MockEvent) : List Tick :=
  tr.filterMap fun
    | .handed tick => some tick
    | _ => none

def quotesMade (tr : List MockEvent) : List (Except Exn WireQuote) :=
  tr.filterMap fun
    | .quoteMade quote => some quote
    | _ => none

def quotesAccepted (tr : List MockEvent) : Nat :=
  tr.countP fun
    | .quoteAccepted => true
    | _ => false

def interruptions (tr : List MockEvent) : Nat :=
  tr.countP fun
    | .interrupted => true
    | _ => false

/-- What was made of an order book that became due. -/
def QuoteMade (tr : List MockEvent) (quote : Except Exn WireQuote) : Prop :=
  ∃ p ∈ acceptedTicks tr,
    match quote with
    | .ok q => ∃ price, QuoteSound q p.1 price
    | .error e => e.kind = .overflowError ∧ p.1.price = .inf false

/-- The books of a run; `due` ticks are yet to be counted. -/
structure Books (observed : Bool) (s : MockPublisher) (tr : List MockEvent) (due : Nat) : Prop where
  prices : PricesSound s.prices
  offered : ∀ p ∈ offeredTicks tr, TickSound p.1 p.2
  accepted : acceptedTicks tr ⊆ offeredTicks tr
  quotes : ∀ quote ∈ quotesMade tr, QuoteMade tr quote
  counter : s.quoteCounter < 4
  counted : (acceptedTicks tr).length =
    4 * (quotesMade tr).length + s.quoteCounter + interruptions tr + due
  published : s.published = (acceptedTicks tr).length + quotesAccepted tr
  handed : handedTicks tr =
    if observed then (acceptedTicks tr).filterMap fun p => p.1.arrived p.2 else []

/-- What is known where the task stands. -/
def PhaseSound : MockPhase → List MockEvent → Prop
  | .publishing tick now, tr => (tick, now) ∈ offeredTicks tr
  | .observing tick, tr => ∃ now, (tick, now) ∈ acceptedTicks tr
  | .crashed e, tr => .refused e ∈ tr ∨ .error e ∈ quotesMade tr
  | _, _ => True

/-- A tick before the observer is yet to be counted. -/
def due : MockPhase → Nat
  | .observing _ => 1
  | _ => 0

structure Sound (observed : Bool) (s : MockPublisher) (tr : List MockEvent) : Prop where
  books : Books observed s tr (due s.phase)
  phase : PhaseSound s.phase tr

section
variable {observed : Bool} {s : MockPublisher} {tr : List MockEvent}

theorem QuoteMade.mono {quote : Except Exn WireQuote} (h : QuoteMade tr quote)
    (es : List MockEvent) : QuoteMade (tr ++ es) quote := by
  obtain ⟨p, hp, hquote⟩ := h
  refine ⟨p, ?_, hquote⟩
  rw [acceptedTicks, List.filterMap_append]
  exact List.mem_append_left _ hp

theorem acceptedTicks_append (tr es : List MockEvent) :
    acceptedTicks (tr ++ es) = acceptedTicks tr ++ acceptedTicks es := List.filterMap_append

theorem offeredTicks_append (tr es : List MockEvent) :
    offeredTicks (tr ++ es) = offeredTicks tr ++ offeredTicks es := List.filterMap_append

theorem quotesMade_append (tr es : List MockEvent) :
    quotesMade (tr ++ es) = quotesMade tr ++ quotesMade es := List.filterMap_append

/-- What the books of a run become by the events of a step. -/
theorem Books.extend {n m : Nat} {s' : MockPublisher} {es : List MockEvent}
    (h : Books observed s tr n) (prices : PricesSound s'.prices)
    (offered : ∀ p ∈ offeredTicks es, TickSound p.1 p.2)
    (accepted : acceptedTicks es ⊆ offeredTicks tr)
    (quotes : ∀ quote ∈ quotesMade es, QuoteMade tr quote) (counter : s'.quoteCounter < 4)
    (counted : (acceptedTicks es).length + s.quoteCounter + n =
      4 * (quotesMade es).length + s'.quoteCounter + interruptions es + m)
    (published : s'.published = s.published + (acceptedTicks es).length + quotesAccepted es)
    (handed : handedTicks es =
      if observed then (acceptedTicks es).filterMap fun p => p.1.arrived p.2 else []) :
    Books observed s' (tr ++ es) m where
  prices := prices
  offered p hp := by
    rw [offeredTicks_append] at hp
    exact (List.mem_append.mp hp).elim (h.offered p) (offered p)
  accepted := by
    rw [acceptedTicks_append, offeredTicks_append]
    exact List.append_subset.mpr ⟨List.subset_append_of_subset_left _ h.accepted,
      List.subset_append_of_subset_left _ accepted⟩
  quotes quote hquote := by
    rw [quotesMade_append] at hquote
    exact ((List.mem_append.mp hquote).elim (h.quotes quote) (quotes quote)).mono es
  counter := counter
  counted := by
    have hcounted := h.counted
    have hinterrupted : interruptions (tr ++ es) = interruptions tr + interruptions es :=
      List.countP_append
    rw [acceptedTicks_append, quotesMade_append, List.length_append, List.length_append,
      hinterrupted]
    omega
  published := by
    have hquotes : quotesAccepted (tr ++ es) = quotesAccepted tr + quotesAccepted es :=
      List.countP_append
    rw [published, h.published, acceptedTicks_append, List.length_append, hquotes]
    omega
  handed := by
    have happend : handedTicks (tr ++ es) = handedTicks tr ++ handedTicks es :=
      List.filterMap_append
    rw [happend, h.handed, handed, acceptedTicks_append, List.filterMap_append]
    cases observed with
    | true => rfl
    | false => rfl

/-- A step that only moves the task. -/
theorem Books.moved {n : Nat} (h : Books observed s tr n) (phase : MockPhase) :
    Books observed { s with phase := phase } tr n :=
  ⟨h.prices, h.offered, h.accepted, h.quotes, h.counter, h.counted, h.published, h.handed⟩

/-- Redis takes a tick: the observer is owed what the dictionary reads as. -/
theorem Books.accept {tick : UsPolling.WireTick} {now : UtcTime} (h : Books observed s tr 0)
    (hoffered : (tick, now) ∈ offeredTicks tr) {es : List MockEvent}
    (hes : es = if observed then (tick.arrived now).toList.map .handed else []) :
    Books observed { s with published := s.published + 1 } (tr ++ .accepted tick now :: es) 1 := by
  have hmember : [(tick, now)] ⊆ offeredTicks tr :=
    List.cons_subset.mpr ⟨hoffered, List.nil_subset _⟩
  subst hes
  cases observed with
  | false =>
      exact h.extend h.prices (List.forall_mem_nil _) hmember (List.forall_mem_nil _) h.counter
        (by simp [acceptedTicks, quotesMade, interruptions]; omega) rfl rfl
  | true =>
      cases harrived : tick.arrived now with
      | none =>
          exact h.extend h.prices (List.forall_mem_nil _) hmember (List.forall_mem_nil _) h.counter
            (by simp [acceptedTicks, quotesMade, interruptions]; omega) rfl
            (by simp [handedTicks, acceptedTicks, harrived])
      | some t =>
          exact h.extend h.prices (List.forall_mem_nil _) hmember (List.forall_mem_nil _) h.counter
            (by simp [acceptedTicks, quotesMade, interruptions]; omega) rfl
            (by simp [handedTicks, acceptedTicks, harrived])

/-- The tick is counted, and every fourth one is followed by an order book. -/
theorem Books.countTick {tick : UsPolling.WireTick} {now : UtcTime} (h : Books observed s tr 1)
    (haccepted : (tick, now) ∈ acceptedTicks tr) (draw : QuoteDraw) :
    Sound observed (s.countTick tick draw).1 (tr ++ (s.countTick tick draw).2) := by
  have hsound := h.offered _ (h.accepted haccepted)
  have hcounter := h.counter
  rw [MockPublisher.countTick]
  split
  · rename_i hfour
    rcases nextQuote_cases hsound.price draw with ⟨quote, price, hquote, hlevels⟩ | ⟨hinf, hquote⟩
    · rw [hquote]
      refine ⟨?_, trivial⟩
      refine h.extend h.prices (List.forall_mem_nil _) (List.nil_subset _) ?_ (Nat.succ_pos 3) ?_
        rfl ?_
      · exact List.forall_mem_singleton.mpr ⟨_, haccepted, price, hlevels⟩
      · simp [acceptedTicks, quotesMade, interruptions, due]
        omega
      · simp [handedTicks, acceptedTicks]
    · rw [hquote]
      refine ⟨?_, .inr ?_⟩
      · refine h.extend h.prices (List.forall_mem_nil _) (List.nil_subset _) ?_ (Nat.succ_pos 3)
          ?_ rfl ?_
        · exact List.forall_mem_singleton.mpr ⟨_, haccepted, rfl, hinf⟩
        · simp [acceptedTicks, quotesMade, interruptions, due]
          omega
        · simp [handedTicks, acceptedTicks]
      · rw [quotesMade_append]
        exact List.mem_append_right _ List.mem_cons_self
  · rename_i hfour
    refine ⟨?_, trivial⟩
    refine h.extend h.prices (List.forall_mem_nil _) (List.nil_subset _) (List.forall_mem_nil _)
      ?_ ?_ rfl ?_
    · exact Nat.lt_of_not_le hfour
    · simp [acceptedTicks, quotesMade, interruptions, due]
    · simp [handedTicks, acceptedTicks]

theorem Sound.acceptTick (h : Sound observed s tr) {tick : UsPolling.WireTick} {now : UtcTime}
    (hphase : s.phase = .publishing tick now) (pr : Json.Printing) (draw : QuoteDraw) :
    Sound observed (s.acceptTick observed pr tick draw).1
      (tr ++ .accepted tick now :: (s.acceptTick observed pr tick draw).2) := by
  obtain ⟨hbooks, hsound⟩ := h
  rw [hphase] at hbooks hsound
  have hmade := (hbooks.offered _ hsound).made
  have hnow (es : List MockEvent) :
      (tick, now) ∈ acceptedTicks (tr ++ .accepted tick now :: es) := by
    rw [acceptedTicks_append]
    exact List.mem_append_right _ List.mem_cons_self
  let next : MockPublisher := { s with published := s.published + 1 }
  have hcounts
      (hes : [] = if observed then (tick.arrived now).toList.map MockEvent.handed else []) :
      Sound observed (next.countTick tick draw).1
        (tr ++ .accepted tick now :: (next.countTick tick draw).2) := by
    have hcount := (hbooks.accept hsound hes).countTick (hnow []) draw
    rwa [List.append_assoc] at hcount
  rw [MockPublisher.acceptTick]
  cases observed with
  | false => exact hcounts rfl
  | true =>
      rw [if_pos rfl, UsPolling.WireTick.dictToTick_toJson pr hmade]
      cases harrived : tick.arrived now with
      | none =>
          rw [harrived] at hcounts
          exact hcounts rfl
      | some t =>
          refine ⟨?_, now, hnow _⟩
          exact (hbooks.accept hsound (by rw [harrived]; rfl)).moved _

theorem PhaseSound.mono {phase : MockPhase} (h : PhaseSound phase tr) (es : List MockEvent) :
    PhaseSound phase (tr ++ es) := by
  cases phase with
  | publishing tick now =>
      rw [PhaseSound, offeredTicks_append]
      exact List.mem_append_left _ h
  | observing tick =>
      obtain ⟨now, hnow⟩ := h
      rw [PhaseSound]
      exact ⟨now, by rw [acceptedTicks_append]; exact List.mem_append_left _ hnow⟩
  | crashed e =>
      rw [PhaseSound, quotesMade_append]
      exact h.imp (List.mem_append_left _) (List.mem_append_left _)
  | stopped | spawned | quoting | sleeping => trivial

/-- An exception that comes out of the publisher is in no book. -/
theorem Books.noted {n : Nat} (h : Books observed s tr n) {event : MockEvent} {e : Exn}
    (hevent : event = .raised e ∨ event = .refused e) : Books observed s (tr ++ [event]) n := by
  refine h.extend h.prices ?_ ?_ ?_ h.counter ?_ ?_ ?_
  all_goals rcases hevent with rfl | rfl
  all_goals simp [offeredTicks, acceptedTicks, quotesMade, quotesAccepted, interruptions,
    handedTicks]

/-- `stop()` loses the tick that the observer has, and nothing else. -/
theorem Sound.halt (h : Sound observed s tr) : Sound observed s.halt.1 (tr ++ s.halt.2) := by
  obtain ⟨hbooks, hsound⟩ := h
  rw [MockPublisher.halt]
  cases hphase : s.phase with
  | crashed e =>
      refine ⟨hbooks.noted (.inl rfl), ?_⟩
      exact hsound.mono _
  | observing tick =>
      rw [hphase] at hbooks
      refine ⟨?_, trivial⟩
      exact hbooks.extend hbooks.prices (List.forall_mem_nil _) (List.nil_subset _)
        (List.forall_mem_nil _) hbooks.counter rfl rfl (by simp [handedTicks, acceptedTicks])
  | stopped | spawned | quoting | sleeping =>
      rw [hphase] at hbooks
      rw [List.append_nil]
      exact ⟨hbooks.moved _, trivial⟩
  | publishing tick now =>
      rw [hphase] at hbooks
      rw [List.append_nil]
      exact ⟨hbooks.moved _, trivial⟩

/-- The next tick is drawn and offered. -/
theorem Sound.wake (h : Sound observed s tr) (hdue : due s.phase = 0) (draw : TickDraw) :
    ∃ prices tick, nextTick s.prices draw = .ok (prices, tick) ∧
      Sound observed { s with prices := prices, phase := .publishing tick draw.now }
        (tr ++ [.offered tick draw.now]) := by
  have hbooks := h.books
  rw [hdue] at hbooks
  obtain ⟨prices, tick, hnext, hprices, htick⟩ := nextTick_ok hbooks.prices draw
  refine ⟨prices, tick, hnext, ?_, ?_⟩
  · exact hbooks.extend hprices (List.forall_mem_singleton.mpr htick) (List.nil_subset _)
      (List.forall_mem_nil _) hbooks.counter
      (by simp [acceptedTicks, quotesMade, interruptions, due]) rfl
      (by simp [handedTicks, acceptedTicks])
  · rw [PhaseSound, offeredTicks_append]
    exact List.mem_append_right _ List.mem_cons_self

theorem Sound.step {pr : Json.Printing} {l : MockLabel} {s' : MockPublisher} {es : List MockEvent}
    (h : Sound observed s tr) (hstep : s.step observed pr l = some (s', es)) :
    Sound observed s' (tr ++ es) := by
  cases l with
  | start =>
      simp only [MockPublisher.step, Option.some.injEq, Prod.mk.injEq] at hstep
      obtain ⟨rfl, rfl⟩ := hstep
      rw [List.append_nil]
      split
      · exact h
      · rename_i hidle
        have hdue : due s.phase = 0 := by
          rw [isRunning] at hidle
          cases hphase : s.phase <;> simp [hphase, due] at hidle ⊢
        have hbooks := h.books
        rw [hdue] at hbooks
        exact ⟨hbooks.moved _, trivial⟩
  | stop =>
      have hhalt := h.halt
      rwa [Option.some.inj hstep] at hhalt
  | wake draw =>
      simp only [MockPublisher.step] at hstep
      split at hstep
      case h_3 => cases hstep
      all_goals
        rename_i hphase
        obtain ⟨prices, tick, hok, hsound⟩ := h.wake (by rw [hphase]; rfl) draw
        rw [hok] at hstep
        cases hstep
        exact hsound
  | tickPublished answer draw =>
      simp only [MockPublisher.step] at hstep
      split at hstep
      · rename_i tick now hphase
        cases answer with
        | ok u =>
            cases hstep
            exact h.acceptTick hphase pr draw
        | error e =>
            cases hstep
            have hbooks := h.books
            rw [hphase] at hbooks
            refine ⟨(hbooks.moved _).noted (.inr rfl), .inl ?_⟩
            exact List.mem_append_right _ List.mem_cons_self
      · cases hstep
  | observed answer draw =>
      simp only [MockPublisher.step] at hstep
      split at hstep
      · rename_i tick hphase
        obtain ⟨hbooks, hsound⟩ := h
        rw [hphase] at hbooks hsound
        obtain ⟨now, hnow⟩ := hsound
        have hcount := hbooks.countTick hnow draw
        rwa [Option.some.inj hstep] at hcount
      · cases hstep
  | quotePublished answer =>
      simp only [MockPublisher.step] at hstep
      split at hstep
      · rename_i hphase
        have hbooks := h.books
        rw [hphase] at hbooks
        cases answer with
        | ok u =>
            cases hstep
            refine ⟨?_, trivial⟩
            exact hbooks.extend hbooks.prices (List.forall_mem_nil _) (List.nil_subset _)
              (List.forall_mem_nil _) hbooks.counter
              (by simp [acceptedTicks, quotesMade, interruptions, due]) rfl
              (by simp [handedTicks, acceptedTicks])
        | error e =>
            cases hstep
            refine ⟨(hbooks.moved _).noted (.inr rfl), .inl ?_⟩
            exact List.mem_append_right _ List.mem_cons_self
      · cases hstep

theorem initial_sound (observed : Bool) : Sound observed {} [] where
  books := ⟨basePrices_sound, List.forall_mem_nil _, List.nil_subset _, List.forall_mem_nil _,
    Nat.succ_pos 3, rfl, rfl, by cases observed <;> rfl⟩
  phase := trivial

theorem run_sound {pr : Json.Printing} {ls : List MockLabel}
    (h : (machine observed pr).run {} ls = some (s, tr)) : Sound observed s tr :=
  Machine.run_invariant (fun _ _ _ _ _ hsound hstep => hsound.step hstep) (initial_sound observed) h

end

/-! ### What every run keeps -/

/-- The prices stay those of the twelve symbols and at least one, and every tick is of such a price.
Of the ticks that Redis took, every fourth was followed by an order book of five levels around the
price of such a tick, unless `stop()` came while the observer had one. What the observer does never
ends the task: it ends with an exception only where Redis refused a message, or where an order book
was due of a price beyond the floats. -/
theorem run_books {observed : Bool} {pr : Json.Printing} {ls : List MockLabel}
    {s : MockPublisher} {tr : List MockEvent}
    (h : (machine observed pr).run {} ls = some (s, tr)) :
    PricesSound s.prices ∧
      (∀ p ∈ acceptedTicks tr, TickSound p.1 p.2) ∧
      (∀ quote ∈ quotesMade tr, QuoteMade tr quote) ∧
      s.published = (acceptedTicks tr).length + quotesAccepted tr ∧
      (acceptedTicks tr).length =
        4 * (quotesMade tr).length + s.quoteCounter + interruptions tr + due s.phase ∧
      s.quoteCounter < 4 ∧
      ∀ e, s.phase = .crashed e →
        .refused e ∈ tr ∨
          e.kind = .overflowError ∧ ∃ p ∈ acceptedTicks tr, p.1.price = .inf false := by
  obtain ⟨hbooks, hphase⟩ := run_sound h
  refine ⟨hbooks.prices, fun p hp => hbooks.offered p (hbooks.accepted hp), hbooks.quotes,
    hbooks.published, hbooks.counted, hbooks.counter, ?_⟩
  intro e hcrashed
  rw [hcrashed] at hphase
  refine hphase.imp_right fun hquote => ?_
  obtain ⟨p, hp, hkind, hprice⟩ := hbooks.quotes _ hquote
  exact ⟨hkind, p, hp, hprice⟩

/-- The observer is handed, in order, the ticks that the worker takes from the messages that Redis
took. -/
theorem run_feeds {py : Worker.Interpreter} (hloads : 1 ≤ py.loadsLimit) {ls : List MockLabel}
    {s : MockPublisher} {tr : List MockEvent}
    (h : (machine true py.toPrinting).run {} ls = some (s, tr)) {msgs : List Worker.Message}
    (hmsgs : List.Forall₂ (fun p msg => p.1.toJson.dumps py.toPrinting = .ok msg.raw)
      (acceptedTicks tr) msgs) :
    msgs.flatMap (heard py) = handedTicks tr := by
  have hbooks := (run_sound h).books
  have hread : List.Forall₂ (fun p msg => Worker.readTick py msg = .ok (p.1.arrived p.2))
      (acceptedTicks tr) msgs := by
    have hsound : ∀ p ∈ acceptedTicks tr, TickSound p.1 p.2 :=
      fun p hp => hbooks.offered p (hbooks.accepted hp)
    refine ((List.forall₂_and_left _ _).mpr ⟨hsound, hmsgs⟩).imp ?_
    intro p msg hp
    exact UsPolling.WireTick.readTick_toJson hloads hp.1.made hp.2
  rw [hbooks.handed, if_pos rfl]
  exact heard_of_read hread

/-! ### A tick of Samsung -/

theorem samsung_seeded : text "005930" ∈ seededTickers := by decide

theorem hundred_volume : (100 : Int) ≤ 100 ∧ (100 : Int) ≤ 10000 := by decide

theorem thousand_volume (_ : Nat) : (500 : Int) ≤ 1000 ∧ (1000 : Int) ≤ 5000 := by decide

def samsungDraw : TickDraw :=
  ⟨text "005930", .finite 1, ⟨sampleDate, Time.midnight⟩, 100, .buy, samsung_seeded, hundred_volume⟩

def flatDraw : QuoteDraw :=
  ⟨⟨sampleDate, Time.midnight⟩, fun _ => 1000, fun _ => 1000, thousand_volume, thousand_volume⟩

def samsungLabels : List MockLabel :=
  [.start, .wake samsungDraw, .tickPublished (.ok ()) flatDraw,
    .observed (raise .valueError) flatDraw]

def shallowInterpreter : Worker.Interpreter := ⟨⟨1, 1, fun _ => true⟩, 1⟩

theorem samsungLabels_run :
    ((machine true shallowInterpreter.toPrinting).run {} samsungLabels).isSome = true := by
  decide +kernel

/-- The state and the events after the tick of Samsung. -/
def samsungRun : MockPublisher × List MockEvent := Option.get _ samsungLabels_run

theorem samsungRun_books :
    PricesSound samsungRun.1.prices ∧
      (∀ p ∈ acceptedTicks samsungRun.2, TickSound p.1 p.2) ∧
      (∀ quote ∈ quotesMade samsungRun.2, QuoteMade samsungRun.2 quote) ∧
      samsungRun.1.published = (acceptedTicks samsungRun.2).length + quotesAccepted samsungRun.2 ∧
      (acceptedTicks samsungRun.2).length =
        4 * (quotesMade samsungRun.2).length + samsungRun.1.quoteCounter +
          interruptions samsungRun.2 + due samsungRun.1.phase ∧
      samsungRun.1.quoteCounter < 4 ∧
      ∀ e, samsungRun.1.phase = .crashed e →
        .refused e ∈ samsungRun.2 ∨
          e.kind = .overflowError ∧ ∃ p ∈ acceptedTicks samsungRun.2, p.1.price = .inf false :=
  run_books (Option.some_get samsungLabels_run).symm

theorem samsungRun_feeds :
    ((acceptedTicks samsungRun.2).map fun p => Worker.Message.str p.1.toJson.dumpsText).flatMap
        (heard shallowInterpreter) = handedTicks samsungRun.2 :=
  run_feeds le_rfl (Option.some_get samsungLabels_run).symm
    (List.forall₂_map_right_iff.mpr (List.forall₂_same.mpr fun p _ =>
      if_pos (UsPolling.WireTick.depth_toJson_le p.1)))

end MockPublisher
end NexusBackend
