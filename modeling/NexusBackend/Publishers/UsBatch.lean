import NexusBackend.Publishers.UsQuotes

/-!
Which answers of the endpoint a batch of `UsPublisher` survives. The request is guarded, the
translation of its answer is not: an integer beyond the floats or an infinite volume raises out
of the poll, and a price may go out that is infinite, undefined or rounded to zero.
-/
namespace NexusBackend

open Python

namespace UsPolling

/-! ### Sound quotes -/

/-- An integer that `float` refuses. -/
def Overflows (v : Json) : Prop :=
  ∃ n : Int, v = .int n ∧ ∃ negative, Python.Float.ofRat n = .inf negative

/-- The day volume is beyond the floats or infinite. -/
def Meta.Unbounded (m : Meta) : Prop :=
  Overflows (m.get (text "regularMarketVolume")) ∨
    ∃ negative, (m.get (text "regularMarketVolume")).toFloat = .ok (.inf negative)

/-- What a quote may hold: a price that `float` does not refuse, and where it is not zero or less
a finite one above half a digit, with a previous close and a day volume that read. -/
structure Meta.Sound (m : Meta) : Prop where
  readable : ¬ Overflows m.priceRaw
  priced : ∀ x, m.priceRaw.toFloat = .ok x → x.le (.finite 0) = false →
    (∃ q, x = .finite q ∧ 1 / 20000 < q) ∧ ¬ Overflows m.close ∧ ¬ m.Unbounded

/-- A finite price above zero and a volume that is not negative. -/
def WireTick.Valid (t : WireTick) : Prop := (∃ q, t.price = .finite q ∧ 0 < q) ∧ 0 ≤ t.volume

/-! ### Reading the numbers -/

theorem not_overflows_of_ok {v : Json} {x : Python.Float} (h : v.toFloat = .ok x) :
    ¬ Overflows v := by
  rintro ⟨n, rfl, negative, hinf⟩
  rw [Json.toFloat, floatOfInt, hinf] at h
  cases h

/-- `except (TypeError, ValueError)`. -/
def caught : List ExnKind := [.typeError, .valueError]

theorem escapes_toFloat_iff (v : Json) : Escapes caught v.toFloat ↔ Overflows v :=
  Json.escapes_toFloat_iff (by simp [caught]) (by simp [caught]) rfl v

/-- A default that reads does not change which values are refused. -/
theorem overflows_orValue_iff {v w : Json} (hw : ¬ Overflows w) :
    Overflows (orValue v w) ↔ Overflows v := by
  rw [orValue]
  split
  · rfl
  · rename_i hfalsy
    refine iff_of_false hw ?_
    rintro ⟨n, rfl, negative, hinf⟩
    obtain rfl : n = 0 := by simpa [Json.truthy] using hfalsy
    rw [Int.cast_zero, Python.Float.ofRat, if_pos rfl] at hinf
    cases hinf

/-- A guarded computation with a default returns where nothing escapes the handler. -/
theorem guarded_ok_iff {α : Type} {x : Except Exn α} {d : α} :
    (∃ a, tryExcept x caught (fun _ => .ok d) = .ok a) ↔ ¬ Escapes caught x := by
  rw [← tryExcept_isOk_iff x caught (fun _ => .ok d) fun _ => rfl]
  cases tryExcept x caught (fun _ => .ok d) with
  | ok a => exact iff_of_true ⟨a, rfl⟩ rfl
  | error e => exact iff_of_false (fun ⟨_, h⟩ => nomatch h) nofun

theorem previousClose_ok_iff (m : Meta) (price : Python.Float) :
    (∃ x, m.previousClose price = .ok x) ↔ ¬ Overflows m.close := by
  have hprice : ¬ Overflows (.float price) := nofun
  rw [← overflows_orValue_iff hprice, ← escapes_toFloat_iff]
  exact guarded_ok_iff

theorem dayVolume_ok_iff (m : Meta) : (∃ r, m.dayVolume = .ok r) ↔ ¬ m.Unbounded := by
  have hzero : ¬ Overflows (.int 0) := by
    rw [← escapes_toFloat_iff]
    exact not_escapes_ok _ _
  have hbounded {v : Json} : Escapes caught ((orValue v (.int 0)).toFloat >>= intOfFloat) ↔
      Overflows v ∨ ∃ negative, v.toFloat = .ok (.inf negative) := by
    rw [escapes_bind_iff, escapes_toFloat_iff, overflows_orValue_iff hzero]
    refine or_congr_right ⟨?_, ?_⟩
    · rintro ⟨x, hx, hescapes⟩
      cases x with
      | finite q => exact absurd hescapes (not_escapes_ok _ _)
      | nan => exact absurd hescapes (not_escapes_raise rfl)
      | inf negative =>
          rw [orValue] at hx
          split at hx
          · exact ⟨negative, hx⟩
          · cases hx
    · rintro ⟨negative, hv⟩
      refine ⟨.inf negative, ?_, (escapes_raise_iff _ _).mpr rfl⟩
      have htruthy : v.truthy = true := by
        cases v with
        | float x =>
            cases hv
            rfl
        | int n =>
            rw [Json.toFloat, floatOfInt] at hv
            split at hv
            · cases hv
            · rename_i hfinite
              exact absurd (Except.ok.inj hv) (hfinite negative)
        | str s =>
            cases s with
            | nil => cases hv
            | cons c s => rfl
        | _ => cases hv
      rw [orValue, if_pos htruthy, hv]
  exact guarded_ok_iff.trans (not_congr hbounded)

/-- The price raises, is none, or is a number that is not zero or less. -/
theorem price_cases (m : Meta) :
    (Overflows m.priceRaw ∧ ∀ x, m.price ≠ .ok x) ∨
      (¬ Overflows m.priceRaw ∧ m.price = .ok none ∧
        ∀ x, m.priceRaw.toFloat = .ok x → x.le (.finite 0) = true) ∨
      ∃ x, m.priceRaw.toFloat = .ok x ∧ x.le (.finite 0) = false ∧ m.price = .ok (some x) := by
  have hescapes := escapes_toFloat_iff m.priceRaw
  rw [Meta.price]
  cases hx : m.priceRaw.toFloat with
  | ok x =>
      rw [hx] at hescapes
      right
      cases hle : x.le (.finite 0) with
      | true =>
          refine .inl ⟨fun h => not_escapes_ok _ _ (hescapes.mpr h), ?_, ?_⟩
          · change Except.ok ((some x).filter _) = _
            rw [Option.filter_some, hle]
            rfl
          · intro y hy
            cases hy
            exact hle
      | false =>
          refine .inr ⟨x, rfl, hle, ?_⟩
          change Except.ok ((some x).filter _) = _
          rw [Option.filter_some, hle]
          rfl
  | error e =>
      rw [hx] at hescapes
      cases he : e.isInstance caught with
      | true =>
          have hnone : tryExcept (some <$> (Except.error e : Except Exn Python.Float)) caught
              (fun _ => .ok none) = .ok none := tryExcept_caught _ he
          refine .inr (.inl ⟨fun h => ?_, ?_, fun x hx => nomatch hx⟩)
          · obtain ⟨e', heq, he'⟩ := hescapes.mpr h
            cases heq
            rw [he] at he'
            cases he'
          · change (tryExcept _ caught _ >>= _) = _
            rw [hnone]
            rfl
      | false =>
          have hraise : tryExcept (some <$> (Except.error e : Except Exn Python.Float)) caught
              (fun _ => .ok none) = .error e := tryExcept_uncaught _ he
          refine .inl ⟨hescapes.mp ⟨e, rfl, he⟩, fun x h => ?_⟩
          change (tryExcept _ caught _ >>= _) = _ at h
          rw [hraise] at h
          cases h

/-! ### One quote -/

theorem tickVolume_nonneg (lastSeen : Option Int) (dayVolume : Int) :
    0 ≤ tickVolume lastSeen dayVolume := by
  cases lastSeen with
  | none => exact le_rfl
  | some last =>
      rw [tickVolume]
      split <;> omega

/-- A price above zero goes out as a finite one above zero where it is more than half a digit. -/
theorem roundTo_valid_iff {x : Python.Float} (hdyadic : ∀ q, x = .finite q → IsDyadic q)
    (hle : x.le (.finite 0) = false) :
    (∃ r, x.roundTo 4 = .finite r ∧ 0 < r) ↔ ∃ q, x = .finite q ∧ 1 / 20000 < q := by
  cases x with
  | finite q =>
      have hpos : 0 < q := by
        rw [Python.Float.le_finite] at hle
        exact not_le.mp (of_decide_eq_false hle)
      obtain ⟨r, hr, hiff⟩ := Python.Float.roundTo_pos (hdyadic q rfl) hpos
      rw [hr]
      constructor
      · rintro ⟨r', hr', hr'pos⟩
        cases hr'
        exact ⟨q, rfl, hiff.mp hr'pos⟩
      · rintro ⟨q', hq', hlarge⟩
        cases hq'
        exact ⟨r, rfl, hiff.mpr hlarge⟩
  | inf negative => exact iff_of_false (fun ⟨_, h, _⟩ => nomatch h) (fun ⟨_, h, _⟩ => nomatch h)
  | nan => exact iff_of_false (fun ⟨_, h, _⟩ => nomatch h) (fun ⟨_, h, _⟩ => nomatch h)

theorem priceRaw_binary {m : Meta} (h : (Json.obj m).Binary) : m.priceRaw.Binary := by
  rw [Meta.priceRaw]
  split
  · rw [Meta.close, orValue]
    split
    · exact get_binary h _
    · exact get_binary h _
  · exact get_binary h _

/-- The quote is translated, to a valid tick if to one, exactly where it is sound. -/
theorem quoteToTick_valid_iff {m : Meta} (hm : (Json.obj m).Binary) (lastVolume : Baselines)
    (now : UtcTime) (symbol : Text) :
    (∃ result, quoteToTick lastVolume now symbol m = .ok result ∧
      ∀ tick lastVolume', result = some (tick, lastVolume') → tick.Valid) ↔ m.Sound := by
  obtain ⟨hoverflows, hraise⟩ | ⟨hreads, hnone, hle⟩ | ⟨x, hx, hle, hsome⟩ := price_cases m
  · refine iff_of_false ?_ fun h => h.readable hoverflows
    rintro ⟨result, hresult, -⟩
    rw [quoteToTick, Meta.quote] at hresult
    obtain ⟨quote?, hquote, -⟩ := bind_eq_ok_iff.mp hresult
    obtain ⟨price?, hprice, -⟩ := bind_eq_ok_iff.mp hquote
    exact hraise _ hprice
  · refine iff_of_true ⟨none, ?_, fun _ _ h => ?_⟩ ⟨hreads, fun x hx hpos => ?_⟩
    · exact quoteToTick_of_none (quote_of_none hnone)
    · cases h
    · rw [hle x hx] at hpos
      cases hpos
  · have hround := roundTo_valid_iff (fun q hq => (priceRaw_binary hm).toFloat (hq ▸ hx)) hle
    constructor
    · rintro ⟨result, hresult, hvalid⟩
      rw [quoteToTick, quote_of_price hsome] at hresult
      obtain ⟨quote?, hquote, hresult⟩ := bind_eq_ok_iff.mp hresult
      obtain ⟨previousClose, hclose, hquote⟩ := bind_eq_ok_iff.mp hquote
      obtain ⟨dayVolume, hvolume, hquote⟩ := bind_eq_ok_iff.mp hquote
      cases hquote
      cases hresult
      refine ⟨not_overflows_of_ok hx, fun y hy _ => ?_⟩
      cases hx.symm.trans hy
      exact ⟨hround.mp (hvalid _ _ rfl).1, (previousClose_ok_iff m x).mp ⟨_, hclose⟩,
        (dayVolume_ok_iff m).mp ⟨_, hvolume⟩⟩
    · intro h
      obtain ⟨hfinite, hclose, hvolume⟩ := h.priced x hx hle
      obtain ⟨previousClose, hclose⟩ := (previousClose_ok_iff m x).mpr hclose
      obtain ⟨dayVolume, hvolume⟩ := (dayVolume_ok_iff m).mpr hvolume
      have hquote : m.quote = .ok (some ⟨x, previousClose, dayVolume⟩) := by
        rw [quote_of_price hsome, hclose, ok_bind, hvolume, ok_bind]
      refine ⟨_, quoteToTick_of_quote hquote, ?_⟩
      · intro tick lastVolume' htick
        cases htick
        exact ⟨hround.mpr hfinite, tickVolume_nonneg _ _⟩

/-! ### A batch -/

theorem objectAt?_binary {pairs inner : List (Text × Json)} {key : Text}
    (h : (Json.obj pairs).Binary) (hinner : objectAt? pairs key = some inner) :
    (Json.obj inner).Binary := by
  rw [objectAt?] at hinner
  split at hinner
  · rename_i found hfound
    cases hinner
    exact h.of_get? hfound
  · cases hinner

theorem firstResult?_binary {chart head : List (Text × Json)} (h : (Json.obj chart).Binary)
    (hhead : firstResult? chart = some head) : (Json.obj head).Binary := by
  rw [firstResult?] at hhead
  split at hhead
  · rename_i found rest hfound
    cases hhead
    exact Json.binary_arr_iff.mp (h.of_get? hfound) _ List.mem_cons_self
  · cases hhead

theorem metaOf_binary {body : Json} {m : Meta} (h : body.Binary) (hm : metaOf body = some m) :
    (Json.obj m).Binary := by
  simp only [metaOf] at hm
  split at hm
  · obtain ⟨chart, hchart, hm⟩ := Option.bind_eq_some_iff.mp hm
    split at hm
    · cases hm
    · obtain ⟨head, hhead, hm⟩ := Option.bind_eq_some_iff.mp hm
      have hmeta := (Option.filter_eq_some_iff.mp hm).1
      exact objectAt?_binary (firstResult?_binary (objectAt?_binary h hchart) hhead) hmeta
  · cases hm

/-- What is read of an answer was decoded from its text. -/
theorem fetchQuote_binary {loadsLimit : Nat} {u : Upstream} {m : Meta}
    (h : fetchQuote loadsLimit u = .ok (some m)) : (Json.obj m).Binary := by
  cases u with
  | raises e => cases h
  | response status body =>
      cases body with
      | none =>
          simp only [fetchQuote] at h
          split at h <;> cases h
      | some s =>
          simp only [fetchQuote] at h
          split at h
          · cases hbody : Json.loads loadsLimit s with
            | error e =>
                rw [hbody] at h
                cases h
            | ok v =>
                rw [hbody] at h
                exact metaOf_binary (Json.loads_binary hbody) (Except.ok.inj h)
          · cases h

theorem notify_ok (cfg : Config) (py : Json.Printing) (w : Surroundings) (tick : WireTick) :
    notify cfg py w tick = .ok () := by
  rw [notify]
  split
  · cases dictToTick py tick.toJson >>= w.onTick with
    | ok a => rfl
    | error e => rfl
  · rfl

section
variable {cfg : Config} {py : Worker.Interpreter}

/-- The answer that a symbol gets. -/
def answer (cfg : Config) (py : Worker.Interpreter) (w : Surroundings) (symbol : Text) :
    Except Exn (Option Meta) :=
  fetchQuote py.loadsLimit (w.upstream (cfg.url symbol))

section
variable {w : Surroundings} {p : UsPolling} {symbol : Text} {m : Meta}

theorem pollSymbol_of_error {e : Exn} (h : answer cfg py w symbol = .error e) :
    pollSymbol cfg py w p symbol = .ok ({ p with failures := p.failures + 1 }, none) := by
  rw [pollSymbol, ← answer, h]

theorem pollSymbol_of_none (h : answer cfg py w symbol = .ok none) :
    pollSymbol cfg py w p symbol = .ok (p, none) := by
  rw [pollSymbol, ← answer, h]

theorem pollSymbol_of_raise (h : answer cfg py w symbol = .ok (some m)) {e : Exn}
    (hquote : quoteToTick p.lastVolume w.now symbol m = .error e) :
    pollSymbol cfg py w p symbol = .error e := by
  rw [pollSymbol, ← answer, h]
  dsimp only
  rw [hquote]
  rfl

theorem pollSymbol_of_skip (h : answer cfg py w symbol = .ok (some m))
    (hquote : quoteToTick p.lastVolume w.now symbol m = .ok none) :
    pollSymbol cfg py w p symbol = .ok (p, none) := by
  rw [pollSymbol, ← answer, h]
  dsimp only
  rw [hquote]
  rfl

theorem pollSymbol_of_tick (h : answer cfg py w symbol = .ok (some m)) {tick : WireTick}
    {lastVolume : Baselines}
    (hquote : quoteToTick p.lastVolume w.now symbol m = .ok (some (tick, lastVolume))) :
    pollSymbol cfg py w p symbol =
      .ok ({ p with published := p.published + 1, lastVolume := lastVolume }, some tick) := by
  rw [pollSymbol, ← answer, h]
  dsimp only
  rw [hquote]
  simp only [ok_bind, notify_ok]
  rfl

end

/-- One turn returns, and sends a valid tick if any, exactly where its quote is sound. -/
theorem pollSymbol_valid_iff (w : Surroundings) (p : UsPolling) (symbol : Text) :
    (∃ p' tick?, pollSymbol cfg py w p symbol = .ok (p', tick?) ∧
      ∀ tick ∈ tick?, tick.Valid) ↔ ∀ m, answer cfg py w symbol = .ok (some m) → m.Sound := by
  cases hanswer : answer cfg py w symbol with
  | error e => exact iff_of_true ⟨_, _, pollSymbol_of_error hanswer, nofun⟩ fun m h => nomatch h
  | ok m? =>
      cases m? with
      | none => exact iff_of_true ⟨_, _, pollSymbol_of_none hanswer, nofun⟩ fun m h => nomatch h
      | some m =>
          have hsound : (∀ m', Except.ok (some m) = (.ok (some m') : Except Exn (Option Meta)) →
              m'.Sound) ↔ m.Sound :=
            ⟨fun h => h m rfl, fun h m' hm' => Option.some.inj (Except.ok.inj hm') ▸ h⟩
          rw [hsound, ← quoteToTick_valid_iff (fetchQuote_binary hanswer) p.lastVolume w.now symbol]
          cases hquote : quoteToTick p.lastVolume w.now symbol m with
          | error e =>
              rw [pollSymbol_of_raise hanswer hquote]
              exact iff_of_false (fun ⟨_, _, h, _⟩ => nomatch h) (fun ⟨_, h, _⟩ => nomatch h)
          | ok result =>
              cases result with
              | none =>
                  rw [pollSymbol_of_skip hanswer hquote]
                  exact iff_of_true ⟨_, _, rfl, nofun⟩ ⟨_, rfl, fun _ _ h => nomatch h⟩
              | some sent =>
                  rw [pollSymbol_of_tick hanswer hquote]
                  constructor
                  · rintro ⟨p', tick?, hpoll, hvalid⟩
                    cases hpoll
                    refine ⟨_, rfl, ?_⟩
                    intro tick lastVolume' hsent
                    cases hsent
                    exact hvalid tick rfl
                  · rintro ⟨result, hresult, hvalid⟩
                    cases hresult
                    refine ⟨_, _, rfl, ?_⟩
                    intro tick htick
                    cases htick
                    exact hvalid _ _ rfl

/-- All symbols had their turn, nothing was raised, and every tick that went out is valid. -/
structure BatchRun.Complete (run : BatchRun) (batch : List Text) : Prop where
  fetched : run.fetched = batch
  returned : run.raised = none
  valid : ∀ tick ∈ run.published, tick.Valid

theorem pollSymbols_complete_iff (world : Nat → Surroundings) (k : Nat) (p : UsPolling)
    (batch : List Text) :
    (pollSymbols cfg py world k p batch).Complete batch ↔
      ∀ i symbol, batch[i]? = some symbol →
        ∀ m, answer cfg py (world (k + i)) symbol = .ok (some m) → m.Sound := by
  induction batch generalizing k p with
  | nil => exact iff_of_true ⟨rfl, rfl, nofun⟩ fun i symbol h => nomatch h
  | cons symbol batch ih =>
      have hsplit : (∀ i symbol', (symbol :: batch)[i]? = some symbol' →
          ∀ m, answer cfg py (world (k + i)) symbol' = .ok (some m) → m.Sound) ↔
            (∀ m, answer cfg py (world k) symbol = .ok (some m) → m.Sound) ∧
              ∀ i symbol', batch[i]? = some symbol' →
                ∀ m, answer cfg py (world (k + 1 + i)) symbol' = .ok (some m) → m.Sound := by
        constructor
        · intro h
          refine ⟨h 0 symbol rfl, fun i symbol' hi => ?_⟩
          rw [Nat.add_right_comm, Nat.add_assoc]
          exact h (i + 1) symbol' hi
        · rintro ⟨hzero, hsucc⟩ i symbol' hi
          cases i with
          | zero =>
              cases hi
              exact hzero
          | succ i =>
              have hnext := hsucc i symbol' hi
              rwa [Nat.add_right_comm, Nat.add_assoc] at hnext
      rw [hsplit, ← pollSymbol_valid_iff (world k) p symbol, pollSymbols]
      cases hpoll : pollSymbol cfg py (world k) p symbol with
      | error e =>
          exact iff_of_false (fun h => nomatch h.returned) fun h => nomatch h.1
      | ok result =>
          obtain ⟨p', tick?⟩ := result
          dsimp only
          rw [← ih (k + 1) p']
          constructor
          · intro h
            refine ⟨⟨p', tick?, rfl, fun tick htick => h.valid tick ?_⟩,
              ⟨(List.cons.inj h.fetched).2, h.returned, fun tick htick => h.valid tick ?_⟩⟩
            · exact List.mem_append_left _ (Option.mem_toList.mpr htick)
            · exact List.mem_append_right _ htick
          · rintro ⟨⟨p'', tick'?, hresult, hvalid⟩, hrest⟩
            cases hresult
            refine ⟨congrArg (symbol :: ·) hrest.fetched, hrest.returned, fun tick htick => ?_⟩
            rcases List.mem_append.mp htick with htick | htick
            · exact hvalid tick (Option.mem_toList.mp htick)
            · exact hrest.valid tick htick

/-- A poll asks for every symbol of its batch once, does not raise and sends valid ticks only,
exactly where every quote it gets is sound. -/
theorem pollOneBatch_complete_iff (cfg : Config) (py : Worker.Interpreter)
    (world : Nat → Surroundings) (p : UsPolling) :
    (pollOneBatch cfg py world p).Complete (cfg.batch p.cursor) ↔
      ∀ i symbol, (cfg.batch p.cursor)[i]? = some symbol →
        ∀ m, fetchQuote py.loadsLimit ((world i).upstream (cfg.url symbol)) = .ok (some m) →
          m.Sound := by
  rw [pollOneBatch, pollSymbols_complete_iff]
  simp only [Nat.zero_add]
  rfl

end

/-! ### One odd answer -/

/-- Two symbols, both in every batch. -/
def pairConfig : Config where
  symbols := [text "AAPL", text "MSFT"]
  dataSourceUrl := text "https://query1.finance.yahoo.com/v8/finance/chart"
  batchSize := 4
  yahooSuffix := []
  yahooMap := []
  observed := false
  symbols_ne := by decide
  batch_pos := by decide

/-- Every request is answered with a price of 170 and a day volume that is infinite. -/
def infiniteWorld (_ : Nat) : Surroundings where
  upstream _ := .response 200 (some (text ("\x7b\"chart\": \x7b\"result\": [\x7b\"meta\": " ++
    "\x7b\"regularMarketPrice\": 170, \"regularMarketVolume\": Infinity\x7d\x7d]\x7d\x7d")))
  now := ⟨sampleDate, Time.midnight⟩
  onTick _ := .ok ()

/-- The first answer stops the batch: the second symbol is never asked for. -/
theorem pollOneBatch_stopped :
    (pollOneBatch pairConfig Worker.samplePython infiniteWorld {}).fetched = [text "AAPL"] ∧
      (pollOneBatch pairConfig Worker.samplePython infiniteWorld {}).raised =
        some ⟨.overflowError, []⟩ ∧
      ¬ (pollOneBatch pairConfig Worker.samplePython infiniteWorld {}).Complete
        (pairConfig.batch 0) := by
  have hraised : (pollOneBatch pairConfig Worker.samplePython infiniteWorld {}).raised =
      some ⟨.overflowError, []⟩ := by
    decide +kernel
  refine ⟨by decide +kernel, hraised, fun h => ?_⟩
  have hreturned := h.returned
  rw [hraised] at hreturned
  cases hreturned

end UsPolling
end NexusBackend
