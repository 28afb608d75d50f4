import NexusBackend.Library.JsonReader
import NexusBackend.Market.Models

/-!
The frames of the realtime gateway: `KisClient._record_to_tick`, the two parsers
of data frames, and how a control frame is told.

The wall clock is read once for each record, so a reading is a parameter of it.
What the parsers log is left out; where a branch only logs, the result says which
branch it was.
-/
namespace NexusBackend
namespace KisClient

open Python

def trIdTick : Text := text "H0STCNT0"
def trIdQuote : Text := text "H0STASP0"

def h0stcnt0Fields : Nat := 46
def fldSymbol : Nat := 0
def fldTimeHms : Nat := 1
def fldPrice : Nat := 2
def fldTickVol : Nat := 12
def fldCcldDvsn : Nat := 21

def fldAspSymbol : Nat := 0
def fldAspTime : Nat := 1
def fldAspAskpStart : Nat := 2
def fldAspBidpStart : Nat := 7
def fldAspAskrsqnStart : Nat := 12
def fldAspBidrsqnStart : Nat := 17
def h0stasp0MinFields : Nat := 22
def aspDepth : Nat := 5

/-! ### Time of a record -/

def kst : Offset := ⟨9 * 3600000000, by decide⟩

/-- What `datetime.now` shows: the date in KST, away from the ends of the calendar,
and the time in UTC. -/
structure ClockReading where
  kstDate : Date
  utcNow : UtcTime
  kstDate_range : 1970 ≤ kstDate.year ∧ kstDate.year < 9999

/-- `now.replace(hour=.., minute=.., second=.., microsecond=0)`, the time of day. -/
def replaceTime (hour minute second : Int) : Except Exn Time :=
  if 0 ≤ hour ∧ 0 ≤ minute ∧ 0 ≤ second then
    Time.make hour.toNat minute.toNat second.toNat 0
  else raise .valueError

/-- The time of day of `HHMMSS`, two characters for each part. -/
def hmsTime (hms : Text) : Except Exn Time := do
  let hour ← intOfText (hms.take 2)
  let minute ← intOfText ((hms.drop 2).take 2)
  let second ← intOfText ((hms.drop 4).take 2)
  replaceTime hour minute second

/-- `HHMMSS` on the date of the clock in KST, in UTC. -/
def anchor (now : ClockReading) (hms : Text) : Except Exn UtcTime := do
  let time ← hmsTime hms
  toUtc now.kstDate time kst

theorem replaceTime_ends (hour minute second : Int) :
    Ends (fun _ => True) (fun e => e.kind = .valueError) (replaceTime hour minute second) := by
  simp only [replaceTime, Time.make]
  split_ifs
  · exact ends_ok trivial
  · exact ends_error rfl
  · exact ends_error rfl

theorem hmsTime_ends (hms : Text) :
    Ends (fun _ => True) (fun e => e.kind = .valueError) (hmsTime hms) :=
  ends_bind (intOfText_ends _) fun _ _ => ends_bind (intOfText_ends _) fun _ _ =>
    ends_bind (intOfText_ends _) fun _ _ => replaceTime_ends _ _ _

theorem ClockReading.toUtc_ok (now : ClockReading) (time : Time) :
    ∃ ts, toUtc now.kstDate time kst = .ok ts := by
  have hr := now.kstDate_range
  exact Python.toUtc_ok time kst (now.kstDate.two_le_ordinal (by omega))
    (now.kstDate.ordinal_lt (by omega))

theorem anchor_ends (now : ClockReading) (hms : Text) :
    Ends (fun _ => True) (fun e => e.kind = .valueError) (anchor now hms) := by
  refine ends_bind (hmsTime_ends hms) fun time _ => ?_
  obtain ⟨ts, h⟩ := now.toUtc_ok time
  rw [h]
  exact ends_ok trivial

/-- A record is anchored exactly where its time reads. -/
theorem anchor_isOk (now : ClockReading) (hms : Text) :
    (anchor now hms).isOk = (hmsTime hms).isOk :=
  isOk_bind now.toUtc_ok

/-! ### Records of trades -/

/-- `fields[i]`. -/
def field (fields : List Text) (i : Nat) : Except Exn Text :=
  match fields[i]? with
  | some s => .ok s
  | none => raise .indexError

/-- `s.strip() or "0"`. -/
def orZero (s : Text) : Text := if strip s = [] then text "0" else strip s

/-- The five fields that are read of a record. -/
structure RecordFields where
  symbol : Text
  hms : Text
  price : Decimal
  volume : Int
  ccld : Text
deriving DecidableEq

def readFields (record : List Text) : Except Exn RecordFields := do
  let symbol := strip (← field record fldSymbol)
  let hms := strip (← field record fldTimeHms)
  let price ← Decimal.ofText (orZero (← field record fldPrice))
  let volume ← intOfText (orZero (← field record fldTickVol))
  let ccld := strip (← field record fldCcldDvsn)
  return ⟨symbol, hms, price, volume, ccld⟩

def sideOf (ccld : Text) : TickSide := if ccld = text "5" then .sell else .buy

/-- The last part of `_record_to_tick`: the tick at the anchored time, if there is one. -/
def tickAt (now : ClockReading) (f : RecordFields) : Except Exn (Option Tick) := do
  let ts ← tryExcept (some <$> anchor now f.hms) [.valueError] fun _ => .ok none
  match ts with
  | none => return none
  | some ts => some <$> Tick.make f.symbol ts.toDateTime f.price f.volume (sideOf f.ccld)

/-- The comparison `price <= 0` and the construction of the tick stand outside of the
`try` blocks. -/
def recordToTick (now : ClockReading) (record : List Text) : Except Exn (Option Tick) := do
  let fields ← tryExcept (some <$> readFields record)
    [.indexError, .valueError, .invalidOperation] fun _ => .ok none
  match fields with
  | none => return none
  | some f =>
      if f.symbol = [] ∨ f.hms.length ≠ 6 then return none
      else if ← f.price.leZero then return none
      else tickAt now f

/-- A price that no check refuses in time: a `NaN`, whose comparison signals, or
positive infinity, which only the tick refuses. -/
def RecordFields.PriceRaises (f : RecordFields) : Prop :=
  f.symbol ≠ [] ∧ f.hms.length = 6 ∧
    ((∃ signaling, f.price = .nan signaling) ∨
      f.price = .infinity false ∧ (hmsTime f.hms).isOk = true)

def PriceRaises (record : List Text) : Prop := ∃ f, readFields record = .ok f ∧ f.PriceRaises

theorem field_ends (fields : List Text) (i : Nat) :
    Ends (fun _ => True) (fun e => e.kind = .indexError) (field fields i) := by
  simp only [field]
  split
  · exact ends_ok trivial
  · exact ends_error rfl

/-- Every error of reading the fields is one the handler names. -/
theorem readFields_ends (record : List Text) :
    Ends (fun _ => True)
      (fun e => e.isInstance [.indexError, .valueError, .invalidOperation] = true)
      (readFields record) := by
  have hfield (i : Nat) := (field_ends record i).mono (fun _ h => h)
    fun e h => Exn.isInstance_of_mem
      [.indexError, .valueError, .invalidOperation] h (by simp)
  have hprice (s : Text) := (Decimal.ofText_ends s).mono (fun _ h => h)
    fun e h => Exn.isInstance_of_mem
      [.indexError, .valueError, .invalidOperation] h (by simp)
  have hvolume (s : Text) := (intOfText_ends s).mono (fun _ h => h)
    fun e h => Exn.isInstance_of_mem
      [.indexError, .valueError, .invalidOperation] h (by simp)
  simp only [readFields]
  refine ends_bind (hfield _) fun symbol _ => ends_bind (hfield _) fun hms _ => ?_
  refine ends_bind (hfield _) fun price _ => ends_bind (hprice _) fun price _ => ?_
  refine ends_bind (hfield _) fun volume _ => ends_bind (hvolume _) fun volume _ => ?_
  exact ends_bind (hfield _) fun ccld _ => ends_ok trivial

theorem tryAnchor (now : ClockReading) (hms : Text) :
    ∃ ts, tryExcept (some <$> anchor now hms) [.valueError] (fun _ => .ok none) = .ok ts ∧
      (ts.isSome = (hmsTime hms).isOk) := by
  rw [← anchor_isOk now]
  cases h : anchor now hms with
  | ok ts => exact ⟨some ts, rfl, rfl⟩
  | error e =>
      have he := Exn.isInstance_of_mem [.valueError]
        ((anchor_ends now hms).2 e h) (by simp)
      exact ⟨none, tryExcept_caught _ he, rfl⟩

theorem tickAt_isOk (now : ClockReading) (f : RecordFields) :
    (tickAt now f).isOk = (f.price.isFinite || !(hmsTime f.hms).isOk) := by
  obtain ⟨ts, hts, hsome⟩ := tryAnchor now f.hms
  simp only [tickAt]
  rw [hts, ← hsome]
  cases ts with
  | none => cases f.price.isFinite <;> rfl
  | some ts =>
      cases hp : f.price.isFinite with
      | true =>
          change (some <$> Tick.make _ _ _ _ _).isOk = _
          rw [Tick.make_eq_ok hp]
          rfl
      | false =>
          change (some <$> Tick.make _ _ _ _ _).isOk = _
          rw [Tick.make_infinite hp]
          rfl

theorem tickAt_ends (now : ClockReading) (f : RecordFields) :
    Ends (fun _ => True) (fun e => e.kind = .validationError) (tickAt now f) := by
  obtain ⟨ts, hts, -⟩ := tryAnchor now f.hms
  simp only [tickAt]
  rw [hts]
  cases ts with
  | none => exact ends_ok trivial
  | some ts => exact ends_map (Tick.make_ends ..) fun _ _ => trivial

theorem recordToTick_unread (now : ClockReading) {record : List Text} {e : Exn}
    (h : readFields record = .error e) : recordToTick now record = .ok none := by
  have hcaught := (readFields_ends record).2 e h
  simp only [recordToTick]
  rw [h]
  change tryExcept (.error e) _ _ >>= _ = _
  rw [tryExcept_caught _ hcaught]
  rfl

theorem recordToTick_read (now : ClockReading) {record : List Text} {f : RecordFields}
    (h : readFields record = .ok f) :
    recordToTick now record =
      if f.symbol = [] ∨ f.hms.length ≠ 6 then .ok none
      else f.price.leZero >>= fun refused => if refused then .ok none else tickAt now f := by
  simp only [recordToTick]
  rw [h]
  rfl

theorem fields_isOk_iff (now : ClockReading) (f : RecordFields) :
    (f.price.leZero >>= fun refused => if refused then .ok none else tickAt now f).isOk = true ↔
      ¬ ((∃ signaling, f.price = .nan signaling) ∨
        f.price = .infinity false ∧ (hmsTime f.hms).isOk = true) := by
  have htick := tickAt_isOk now f
  cases hp : f.price with
  | nan signaling => exact iff_of_false nofun (not_not.mpr (.inl ⟨signaling, rfl⟩))
  | infinity negative =>
      cases negative with
      | true => exact iff_of_true rfl (by simp)
      | false =>
          change (tickAt now f).isOk = true ↔ _
          rw [htick, hp]
          simp [Decimal.isFinite]
  | finite negative coefficient exponent =>
      refine iff_of_true ?_ (by simp)
      change (if _ then _ else tickAt now f : Except Exn (Option Tick)).isOk = true
      split
      · rfl
      · rw [htick, hp]
        rfl

/-- A record raises exactly through its price. -/
theorem recordToTick_isOk_iff (now : ClockReading) (record : List Text) :
    (recordToTick now record).isOk = true ↔ ¬ PriceRaises record := by
  cases hf : readFields record with
  | error e =>
      rw [recordToTick_unread now hf]
      refine iff_of_true rfl ?_
      rintro ⟨f, h, -⟩
      rw [hf] at h
      cases h
  | ok f =>
      have hraises : PriceRaises record ↔ f.PriceRaises := by
        simp [PriceRaises, hf]
      rw [recordToTick_read now hf, hraises, RecordFields.PriceRaises]
      by_cases hskip : f.symbol = [] ∨ f.hms.length ≠ 6
      · rw [if_pos hskip]
        exact iff_of_true rfl fun h => hskip.elim h.1 fun hl => hl h.2.1
      · rw [if_neg hskip, fields_isOk_iff]
        rw [not_or, ne_eq, not_not] at hskip
        simp only [ne_eq, hskip, not_false_eq_true, true_and]

/-! ### Frames of trades -/

/-- `_flag, tr_id, count_str, payload = frame.split("|", 3)`, without the flag. -/
def envelope (frame : Text) : Except Exn (Text × Text × Text) :=
  match splitMax 124 3 frame with
  | [_, trId, countStr, payload] => .ok (trId, countStr, payload)
  | _ => raise .valueError

def readEnvelope (frame : Text) : Except Exn (Text × Int × Text) := do
  let (trId, countStr, payload) ← envelope frame
  let count ← intOfText countStr
  return (trId, count, payload)

/-- The slices that the loop over `range(count)` takes; where the payload is short, as
many as it fills. -/
def records (count : Int) (payload : Text) : List (List Text) :=
  let fields := splitAll 94 payload
  let count : Int :=
    if (fields.length : Int) < count * h0stcnt0Fields then fields.length / h0stcnt0Fields
    else count
  (List.range count.toNat).map fun i => (fields.drop (i * h0stcnt0Fields)).take h0stcnt0Fields

/-- The records of a frame of trades: none where the envelope does not unpack, where the
count is no integer, or where the topic is another one. -/
def tradeRecords (frame : Text) : List (List Text) :=
  match readEnvelope frame with
  | .error _ => []
  | .ok (trId, count, payload) => if trId ≠ trIdTick then [] else records count payload

/-- The loop over the records, the first of them at position `i`. -/
def recordsToTicks (now : Nat → ClockReading) : Nat → List (List Text) → Except Exn (List Tick)
  | _, [] => .ok []
  | i, record :: rest => do
      let tick ← recordToTick (now i) record
      let ticks ← recordsToTicks now (i + 1) rest
      return tick.toList ++ ticks

def parseH0stcnt0Frame (now : Nat → ClockReading) (frame : Text) : Except Exn (List Tick) := do
  let unpacked ← tryExcept (some <$> readEnvelope frame) [.valueError, .indexError]
    fun _ => .ok none
  match unpacked with
  | none => return []
  | some (trId, count, payload) =>
      if trId ≠ trIdTick then return []
      else recordsToTicks now 0 (records count payload)

theorem envelope_ends (frame : Text) :
    Ends (fun _ => True) (fun e => e.kind = .valueError) (envelope frame) := by
  simp only [envelope]
  split
  · exact ends_ok trivial
  · exact ends_error rfl

theorem readEnvelope_ends (frame : Text) :
    Ends (fun _ => True) (fun e => e.kind = .valueError) (readEnvelope frame) :=
  ends_bind (envelope_ends frame) fun _ _ =>
    ends_bind (intOfText_ends _) fun _ _ => ends_ok trivial

/-- Whatever is wrong with the envelope costs the frame only its own records. -/
theorem parseH0stcnt0Frame_eq (now : Nat → ClockReading) (frame : Text) :
    parseH0stcnt0Frame now frame = recordsToTicks now 0 (tradeRecords frame) := by
  simp only [parseH0stcnt0Frame, tradeRecords]
  cases h : readEnvelope frame with
  | error e =>
      have hcaught := Exn.isInstance_of_mem [.valueError, .indexError]
        ((readEnvelope_ends frame).2 e h) (by simp)
      change tryExcept (.error e) _ _ >>= _ = _
      rw [tryExcept_caught _ hcaught]
      rfl
  | ok unpacked =>
      obtain ⟨trId, count, payload⟩ := unpacked
      change (if trId ≠ trIdTick then _ else _) = recordsToTicks now 0 (if _ then _ else _)
      split <;> rfl

/-- The tick a record becomes on its own; none where it is skipped or raises. -/
def ownTick (now : ClockReading) (record : List Text) : List Tick :=
  match recordToTick now record with
  | .ok tick => tick.toList
  | .error _ => []

def ownTicks (now : Nat → ClockReading) (i : Nat) (rs : List (List Text)) : List Tick :=
  (rs.zipIdx i).flatMap fun (record, k) => ownTick (now k) record

/-- A frame yields the ticks of its records exactly where no record raises. -/
theorem recordsToTicks_ok_iff (now : Nat → ClockReading) (i : Nat) (rs : List (List Text)) :
    (recordsToTicks now i rs).isOk = true ↔ ∀ record ∈ rs, ¬ PriceRaises record := by
  induction rs generalizing i with
  | nil => exact iff_of_true rfl (by simp)
  | cons record rest ih =>
      rw [List.forall_mem_cons, ← recordToTick_isOk_iff (now i), ← ih (i + 1), recordsToTicks]
      cases recordToTick (now i) record with
      | error e => exact iff_of_false nofun fun h => by cases h.1
      | ok tick =>
          cases recordsToTicks now (i + 1) rest with
          | error e => exact iff_of_false nofun fun h => by cases h.2
          | ok ticks => exact iff_of_true rfl ⟨rfl, rfl⟩

theorem recordsToTicks_ok {now : Nat → ClockReading} {i : Nat} {rs : List (List Text)}
    {ticks : List Tick} (h : recordsToTicks now i rs = .ok ticks) :
    ticks = ownTicks now i rs := by
  induction rs generalizing i ticks with
  | nil => cases h; rfl
  | cons record rest ih =>
      rw [recordsToTicks] at h
      cases ht : recordToTick (now i) record with
      | error e =>
          rw [ht] at h
          cases h
      | ok tick =>
          cases hr : recordsToTicks now (i + 1) rest with
          | error e =>
              rw [ht, hr] at h
              cases h
          | ok more =>
              rw [ht, hr] at h
              obtain rfl := Except.ok.inj h
              rw [ih hr]
              simp [ownTicks, ownTick, ht]

/-! ### Frames of the order book -/

/-- One depth of the book: ask price, bid price, ask volume and bid volume, read in this order. -/
def readLevel (fields : List Text) (i : Nat) : Except Exn (QuoteLevel × QuoteLevel) := do
  let askPrice ← intOfText (orZero (← field fields (fldAspAskpStart + i)))
  let bidPrice ← intOfText (orZero (← field fields (fldAspBidpStart + i)))
  let askVolume ← intOfText (orZero (← field fields (fldAspAskrsqnStart + i)))
  let bidVolume ← intOfText (orZero (← field fields (fldAspBidrsqnStart + i)))
  return (⟨askPrice, askVolume⟩, ⟨bidPrice, bidVolume⟩)

/-- Only levels with a positive price are kept. -/
def keepLevel (level : QuoteLevel) : List QuoteLevel := if 0 < level.price then [level] else []

structure BookFields where
  symbol : Text
  hms : Text
  asks : List QuoteLevel
  bids : List QuoteLevel
deriving DecidableEq

def readBook (fields : List Text) : Except Exn BookFields := do
  let symbol := strip (← field fields fldAspSymbol)
  let hms := strip (← field fields fldAspTime)
  (List.range aspDepth).foldlM (fun book i => do
      let (ask, bid) ← readLevel fields i
      return { book with asks := book.asks ++ keepLevel ask, bids := book.bids ++ keepLevel bid })
    ⟨symbol, hms, [], []⟩

/-- The time falls back to the clock where it does not read. -/
def bookQuotes (now : ClockReading) (book : BookFields) : Except Exn (List Quote) :=
  if book.symbol = [] ∨ book.asks = [] ∨ book.bids = [] then .ok []
  else do
    let ts ← tryExcept (anchor now book.hms) [.valueError, .indexError] fun _ => .ok now.utcNow
    return [⟨book.symbol, ts.toDateTime, book.bids, book.asks⟩]

def parseH0stasp0Frame (now : ClockReading) (frame : Text) : Except Exn (List Quote) := do
  let unpacked ← tryExcept (some <$> envelope frame) [.valueError] fun _ => .ok none
  match unpacked with
  | none => return []
  | some (_, _, payload) =>
      let fields := splitAll 94 payload
      if fields.length < h0stasp0MinFields then return []
      else
        let book ← tryExcept (some <$> readBook fields) [.indexError, .valueError]
          fun _ => .ok none
        match book with
        | none => return []
        | some book => bookQuotes now book

theorem readBook_ends (fields : List Text) :
    Ends (fun _ => True) (fun e => e.isInstance [.indexError, .valueError] = true)
      (readBook fields) := by
  have hfield (i : Nat) := (field_ends fields i).mono (fun _ h => h)
    fun e h => Exn.isInstance_of_mem [.indexError, .valueError] h (by simp)
  have hint (s : Text) := (intOfText_ends s).mono (fun _ h => h)
    fun e h => Exn.isInstance_of_mem [.indexError, .valueError] h (by simp)
  have hlevel (i : Nat) : Ends (fun _ => True)
      (fun e => e.isInstance [.indexError, .valueError] = true) (readLevel fields i) := by
    refine ends_bind (hfield _) fun _ _ => ends_bind (hint _) fun _ _ => ?_
    refine ends_bind (hfield _) fun _ _ => ends_bind (hint _) fun _ _ => ?_
    refine ends_bind (hfield _) fun _ _ => ends_bind (hint _) fun _ _ => ?_
    exact ends_bind (hfield _) fun _ _ => ends_bind (hint _) fun _ _ => ends_ok trivial
  refine ends_bind (hfield _) fun symbol _ => ends_bind (hfield _) fun hms _ => ?_
  exact ends_foldlM (fun book i _ => ends_bind (hlevel i) fun _ _ => ends_ok trivial) _ trivial

theorem bookQuotes_ends (now : ClockReading) (book : BookFields) :
    Ends (fun quotes => quotes.length ≤ 1) (fun _ => False) (bookQuotes now book) := by
  simp only [bookQuotes]
  split
  · exact ends_ok (Nat.zero_le 1)
  · have hanchor := (anchor_ends now book.hms).mono (fun _ h => h)
      fun e h => Exn.isInstance_of_mem [.valueError, .indexError] h (by simp)
    refine ends_bind (ends_tryExcept_all hanchor fun e => ends_ok trivial) fun ts _ => ?_
    exact ends_ok (Nat.le_refl 1)

/-- The parser of the order book never raises, and a frame has at most one snapshot. -/
theorem parseH0stasp0Frame_ok (now : ClockReading) (frame : Text) :
    ∃ quotes, parseH0stasp0Frame now frame = .ok quotes ∧ quotes.length ≤ 1 := by
  refine Ends.returns ?_
  have henvelope := (envelope_ends frame).mono (fun _ h => h)
    fun e h => Exn.isInstance_of_mem [.valueError] h (by simp)
  refine ends_bind (Q := fun _ => True) (ends_tryExcept_all (ends_map henvelope fun _ _ => trivial)
    fun e => ends_ok trivial) fun unpacked _ => ?_
  split
  · exact ends_ok (Nat.zero_le 1)
  · dsimp only
    split
    · exact ends_ok (Nat.zero_le 1)
    · refine ends_bind (Q := fun _ => True) (ends_tryExcept_all
        (ends_map (readBook_ends _) fun _ _ => trivial) fun e => ends_ok trivial) fun book _ => ?_
      split
      · exact ends_ok (Nat.zero_le 1)
      · exact bookQuotes_ends now _

end KisClient
end NexusBackend
