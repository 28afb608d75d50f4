import NexusBackend.Kis.Stream
import NexusBackend.Library.IsoText
import NexusBackend.Library.JsonRoundTrip
import NexusBackend.Persistence.Worker

/-!
A trade on its way from the gateway to the worker: the tick that `KisClient` parses, the JSON
text that `KisPublisher` publishes of it, and the tick that the worker reads there. Symbol,
time, volume and side arrive as they were; the price arrives as a decimal of the same float.
-/
namespace NexusBackend

open Python

/-! ### The message of a tick -/

/-- `_tick_to_wire`. -/
def tickToWire (tick : Tick) : Json :=
  .obj [(text "symbol", .str tick.symbol), (text "ts", .str tick.ts.isoformatMilliseconds),
    (text "price", .float tick.price.toFloat), (text "volume", .int tick.volume),
    (text "side", .str tick.side.value)]

/-- `json.dumps(_tick_to_wire(tick))`. -/
def tickPayload (py : Worker.Interpreter) (tick : Tick) : Except Exn Text :=
  (tickToWire tick).dumps py.toPrinting

/-! ### Ticks as the gateway parses them -/

/-- What the parser makes of a record: a symbol without surrogates, a whole second in UTC, a
positive price and a volume that `int` has read. -/
structure Parsed (tick : Tick) : Prop where
  symbol : Json.IsUnicode tick.symbol
  ts : ∃ t : UtcTime, tick.ts = t.toDateTime ∧ t.time.microsecond = 0
  price : 0 < tick.price.toRat
  volume : (natDigits tick.volume.natAbs).length ≤ maxIntDigits

theorem isUnicode_of_sublist {s t : Text} (h : s.Sublist t) (ht : Json.IsUnicode t) :
    Json.IsUnicode s :=
  fun c hc => ht c (h.subset hc)

namespace KisClient

theorem make_microsecond {hour minute second microsecond : Nat} {t : Time}
    (h : Time.make hour minute second microsecond = .ok t) : t.microsecond = microsecond := by
  rw [Time.make] at h
  split at h
  · cases h
    rfl
  · cases h

theorem toUtc_microsecond {date : Date} {time : Time} {offset : Offset} {t : UtcTime}
    (h : toUtc date time offset = .ok t) :
    t.time.microsecond = ((time.micros - offset.micros) % dayMicros).toNat % 1000000 := by
  obtain ⟨day, -, h⟩ := bind_eq_ok_iff.mp h
  obtain ⟨clock, hclock, h⟩ := bind_eq_ok_iff.mp h
  have htime : t.time = clock := congrArg UtcTime.time (Except.ok.inj h).symm
  rw [htime, make_microsecond hclock]

/-- A clock without microseconds stays so in UTC. -/
theorem toUtc_wholeSecond {date : Date} {time : Time} {t : UtcTime}
    (hzero : time.microsecond = 0) (h : toUtc date time kst = .ok t) :
    t.time.microsecond = 0 := by
  have hoffset : kst.micros = 32400000000 := by decide
  rw [toUtc_microsecond h, hoffset, Time.micros, hzero, dayMicros]
  omega

theorem hmsTime_wholeSecond {hms : Text} {time : Time} (h : hmsTime hms = .ok time) :
    time.microsecond = 0 := by
  obtain ⟨hour, -, h⟩ := bind_eq_ok_iff.mp h
  obtain ⟨minute, -, h⟩ := bind_eq_ok_iff.mp h
  obtain ⟨second, -, h⟩ := bind_eq_ok_iff.mp h
  rw [replaceTime] at h
  split at h
  · exact make_microsecond h
  · cases h

theorem anchor_wholeSecond {now : ClockReading} {hms : Text} {ts : UtcTime}
    (h : anchor now hms = .ok ts) : ts.time.microsecond = 0 := by
  obtain ⟨time, htime, h⟩ := bind_eq_ok_iff.mp h
  exact toUtc_wholeSecond (hmsTime_wholeSecond htime) h

theorem field_mem {fields : List Text} {i : Nat} {s : Text} (h : field fields i = .ok s) :
    s ∈ fields := by
  rw [field] at h
  split at h
  · cases h
    exact List.mem_of_getElem? (by assumption)
  · cases h

theorem readFields_ok {record : List Text} {f : RecordFields} (h : readFields record = .ok f) :
    (∃ s ∈ record, f.symbol = strip s) ∧ ∃ s, intOfText s = .ok f.volume := by
  obtain ⟨symbol, hsymbol, h⟩ := bind_eq_ok_iff.mp h
  obtain ⟨hms, -, h⟩ := bind_eq_ok_iff.mp h
  obtain ⟨priceText, -, h⟩ := bind_eq_ok_iff.mp h
  obtain ⟨price, -, h⟩ := bind_eq_ok_iff.mp h
  obtain ⟨volumeText, -, h⟩ := bind_eq_ok_iff.mp h
  obtain ⟨volume, hvolume, h⟩ := bind_eq_ok_iff.mp h
  obtain ⟨ccld, -, h⟩ := bind_eq_ok_iff.mp h
  cases h
  exact ⟨⟨symbol, field_mem hsymbol, rfl⟩, _, hvolume⟩

theorem toRat_pos {d : Decimal} (hfinite : d.isFinite = true) (h : d.leZero = .ok false) :
    0 < d.toRat := by
  cases d with
  | finite negative coefficient exponent =>
      obtain ⟨hsign, hzero⟩ := Bool.or_eq_false_iff.mp (Except.ok.inj h)
      have hpos : (0 : ℚ) < coefficient :=
        Nat.cast_pos.mpr (Nat.pos_of_ne_zero (of_decide_eq_false hzero))
      rw [Decimal.toRat, hsign, if_neg Bool.false_ne_true, one_mul, pow10_eq_zpow]
      positivity
  | infinity negative => cases hfinite
  | nan signaling => cases hfinite

theorem tickAt_ok {now : ClockReading} {f : RecordFields} {tick : Tick}
    (h : tickAt now f = .ok (some tick)) :
    ∃ ts, anchor now f.hms = .ok ts ∧ tick.symbol = f.symbol ∧ tick.ts = ts.toDateTime ∧
      tick.price = f.price ∧ tick.volume = f.volume := by
  rw [tickAt] at h
  cases ha : anchor now f.hms with
  | error e =>
      have hcaught := Exn.isInstance_of_mem [.valueError] ((anchor_ends now f.hms).2 e ha)
        List.mem_cons_self
      have hnone : tryExcept (some <$> Except.error e) [.valueError]
          (fun _ => .ok (none : Option UtcTime)) = .ok none := tryExcept_caught _ hcaught
      rw [ha, hnone] at h
      cases h
  | ok ts =>
      rw [ha] at h
      change some <$> Tick.make f.symbol ts.toDateTime f.price f.volume (sideOf f.ccld) = _ at h
      rw [Tick.make] at h
      split at h
      · cases h
        exact ⟨ts, rfl, rfl, rfl, rfl, rfl⟩
      · cases h

theorem recordToTick_parsed {now : ClockReading} {record : List Text} {tick : Tick}
    (hrecord : ∀ s ∈ record, Json.IsUnicode s) (h : recordToTick now record = .ok (some tick)) :
    Parsed tick := by
  cases hf : readFields record with
  | error e =>
      rw [recordToTick_unread now hf] at h
      cases h
  | ok f =>
      rw [recordToTick_read now hf] at h
      split at h
      · cases h
      · obtain ⟨refused, hpositive, h⟩ := bind_eq_ok_iff.mp h
        split at h
        · cases h
        · rename_i hrefused
          rw [Bool.eq_false_of_not_eq_true hrefused] at hpositive
          obtain ⟨ts, hts, hsymbol, htime, hprice, hvolume⟩ := tickAt_ok h
          obtain ⟨⟨s, hs, hstrip⟩, volumeText, hread⟩ := readFields_ok hf
          refine ⟨?_, ⟨ts, htime, anchor_wholeSecond hts⟩, ?_, ?_⟩
          · rw [hsymbol, hstrip]
            exact isUnicode_of_sublist (strip_sublist s) (hrecord s hs)
          · have hfinite := tick.price_finite
            rw [hprice] at hfinite ⊢
            exact toRat_pos hfinite hpositive
          · rw [hvolume]
            exact length_natDigits_of_intOfText hread

end KisClient

/-! ### Records of frames -/

/-- A record as it is cut out of a frame, which has been decoded, with the clock at the time
it is parsed. -/
structure TradeRecord where
  now : KisClient.ClockReading
  fields : List Text
  unicode : ∀ s ∈ fields, Json.IsUnicode s

/-- The ticks parsed. -/
def parsedTicks (records : List TradeRecord) : List Tick :=
  records.flatMap fun r => KisClient.ownTick r.now r.fields

theorem parsedTicks_parsed {records : List TradeRecord} {tick : Tick}
    (h : tick ∈ parsedTicks records) : Parsed tick := by
  obtain ⟨r, -, htick⟩ := List.mem_flatMap.mp h
  rw [KisClient.ownTick] at htick
  split at htick
  · rename_i found hfound
    obtain rfl := Option.mem_toList.mp htick
    exact KisClient.recordToTick_parsed r.unicode hfound
  · cases htick

theorem raw_unicode (f : KisClient.Frame) : Json.IsUnicode f.raw := by
  cases f with
  | text chars scalar => exact scalar
  | binary bytes => exact Utf8.decode_scalar _

theorem readEnvelope_payload {frame trId payload : Text} {count : Int}
    (h : KisClient.readEnvelope frame = .ok (trId, count, payload)) :
    payload ∈ splitMax 124 3 frame := by
  obtain ⟨⟨topic, countStr, rest⟩, hparts, h⟩ := bind_eq_ok_iff.mp h
  obtain ⟨n, -, h⟩ := bind_eq_ok_iff.mp h
  cases h
  rw [KisClient.envelope] at hparts
  split at hparts
  · rename_i flag topic countStr payload hsplit
    cases hparts
    rw [hsplit]
    exact List.mem_cons_of_mem _ (List.mem_cons_of_mem _ (List.mem_cons_of_mem _
      List.mem_cons_self))
  · cases hparts

theorem tradeRecords_unicode {f : KisClient.Frame} {record : List Text}
    (h : record ∈ KisClient.tradeRecords f.raw) : ∀ s ∈ record, Json.IsUnicode s := by
  rw [KisClient.tradeRecords] at h
  split at h
  · cases h
  · rename_i trId count payload hread
    split at h
    · cases h
    · intro s hs c hc
      obtain ⟨i, -, rfl⟩ := List.mem_map.mp h
      have hfield := List.mem_of_mem_drop (List.mem_of_mem_take hs)
      have hpayload := mem_of_splitMax (readEnvelope_payload hread) c
      exact raw_unicode f c (hpayload (mem_of_splitMax hfield c hc))

/-- The records of a frame, each with the clock that the parser reads for it. -/
def frameRecords (d : KisClient.Delivery) : List TradeRecord :=
  (KisClient.tradeRecords d.frame.raw).attach.zipIdx.map fun (record, k) =>
    ⟨d.now k, record.1, tradeRecords_unicode record.2⟩

/-- The ticks parsed of them are those that the stream owes the frame. -/
theorem parsedTicks_frameRecords (d : KisClient.Delivery) :
    parsedTicks (frameRecords d) =
      KisClient.ownTicks d.now 0 (KisClient.tradeRecords d.frame.raw) := by
  rw [parsedTicks, frameRecords, KisClient.ownTicks, List.flatMap_map]
  conv_rhs => rw [← List.attach_map_subtype_val (KisClient.tradeRecords d.frame.raw),
    List.zipIdx_map, List.flatMap_map]
  rfl

/-! ### Ticks as the worker reads them -/

/-- `Decimal(str(d["price"]))` of the published price. -/
def wirePrice (tick : Tick) : Decimal :=
  (Decimal.ofText? tick.price.toFloat.text).getD (.nan false)

/-- The tick that comes out of the message, unless its price has become infinite. -/
def arrived (tick : Tick) : Option Tick :=
  if h : (wirePrice tick).isFinite = true then
    some { tick with price := wirePrice tick, price_finite := h }
  else none

/-- The float of a finite decimal is the one nearest to its value. -/
theorem toFloat_of_isFinite {d : Decimal} (h : d.isFinite = true) :
    d.toFloat = Float.ofRat d.toRat := by
  cases d with
  | finite negative coefficient exponent => exact ofScientific_eq negative coefficient exponent
  | infinity negative => cases h
  | nan signaling => cases h

theorem isDyadic_price {tick : Tick} {q : ℚ} (h : tick.price.toFloat = .finite q) :
    IsDyadic q := by
  rw [toFloat_of_isFinite tick.price_finite] at h
  exact isDyadic_of_ofRat h

/-- The price reads as a decimal of the same float, and is finite where that is. -/
theorem wirePrice_spec (tick : Tick) :
    Decimal.ofText tick.price.toFloat.text = .ok (wirePrice tick) ∧
      (wirePrice tick).toFloat = tick.price.toFloat ∧
      ((wirePrice tick).isFinite = true ↔ ∃ q, tick.price.toFloat = .finite q) := by
  rw [wirePrice, Decimal.ofText]
  cases hx : tick.price.toFloat with
  | finite q =>
      obtain ⟨d, hd, hfinite, hfloat⟩ := Decimal.ofText?_text (isDyadic_price hx)
      rw [hd]
      exact ⟨rfl, hfloat, iff_of_true hfinite ⟨q, rfl⟩⟩
  | inf negative =>
      have hnone : ¬ ∃ q, Python.Float.inf negative = .finite q := by
        rintro ⟨q, h⟩
        cases h
      cases negative <;> exact ⟨rfl, rfl, iff_of_false Bool.false_ne_true hnone⟩
  | nan =>
      rw [toFloat_of_isFinite tick.price_finite] at hx
      exact absurd hx (ofRat_ne_nan _)

theorem loadable_tickToWire {tick : Tick} (h : Parsed tick) : (tickToWire tick).Loadable := by
  obtain ⟨t, ht, -⟩ := h.ts
  have hts : Json.IsUnicode tick.ts.isoformatMilliseconds := by
    rw [ht]
    exact Json.isUnicode_of_ascii (isoformatMilliseconds_ascii t)
  have hside : Json.IsUnicode tick.side.value := by cases tick.side <;> decide
  apply Json.loadable_obj
  · exact (by decide : [text "symbol", text "ts", text "price", text "volume", text "side"].Nodup)
  · simp only [List.forall_mem_cons]
    exact ⟨⟨by decide, h.symbol⟩, ⟨by decide, hts⟩, ⟨by decide, fun _ => isDyadic_price⟩,
      ⟨by decide, h.volume⟩, ⟨by decide, hside⟩, nofun⟩

theorem depth_tickToWire_le (tick : Tick) : (tickToWire tick).depth ≤ 1 := by
  apply Json.depth_obj_le
  simp only [List.map_cons, List.map_nil, List.forall_mem_cons]
  exact ⟨le_rfl, le_rfl, le_rfl, le_rfl, le_rfl, nofun⟩

theorem fromisoformat?_wholeSecond {t : UtcTime} (h : t.time.microsecond = 0) :
    fromisoformat? t.toDateTime.isoformatMilliseconds = some t.toDateTime := by
  have hcut : t.time.cutToMillis = t.time := by
    obtain ⟨date, hour, minute, second, microsecond, hvalid⟩ := t
    simp only at h
    simp only [Time.cutToMillis, h, Nat.zero_div, Nat.zero_mul]
  rw [fromisoformat?_isoformatMilliseconds, hcut]

theorem dictToTick_tickToWire {pr : Json.Printing} {tick : Tick} (h : Parsed tick) :
    dictToTick pr (tickToWire tick) =
      Tick.make tick.symbol tick.ts (wirePrice tick) tick.volume tick.side := by
  obtain ⟨t, ht, hzero⟩ := h.ts
  have hside : optional (tickToWire tick) "side" (.str (text "buy")) (·.toStr pr) =
      .ok tick.side.value := toStr_str pr tick.side.value
  have hsymbol : required (tickToWire tick) "symbol" (·.toStr pr) = .ok tick.symbol :=
    toStr_str pr tick.symbol
  have hts : required (tickToWire tick) "ts" (fun v => v.toStr pr >>= fromisoformat) =
      .ok tick.ts := by
    have hindex : (tickToWire tick).index (text "ts") =
        .ok (.str tick.ts.isoformatMilliseconds) := rfl
    rw [required, hindex, ok_bind, toStr_str, ok_bind, fromisoformat, ht,
      fromisoformat?_wholeSecond hzero]
  have hprice : required (tickToWire tick) "price" (fun v => v.toStr pr >>= Decimal.ofText) =
      .ok (wirePrice tick) := by
    have hindex : (tickToWire tick).index (text "price") = .ok (.float tick.price.toFloat) := rfl
    have hstr : (Json.float tick.price.toFloat).toStr pr = .ok tick.price.toFloat.text :=
      if_pos (Nat.zero_le _)
    rw [required, hindex, ok_bind, hstr, ok_bind, (wirePrice_spec tick).1]
  have hvolume : required (tickToWire tick) "volume" Json.toInt = .ok tick.volume := rfl
  have hsideValue : (if asciiLower tick.side.value = text "sell" then TickSide.sell else .buy) =
      tick.side := by
    cases tick.side <;> decide
  simp only [dictToTick, hside, hsymbol, hts, hprice, hvolume, ok_bind, hsideValue]

/-- The worker reads the published tick, and skips it where its price has become infinite. -/
theorem readTick_published {py : Worker.Interpreter} (hloads : 1 ≤ py.loadsLimit) {tick : Tick}
    (h : Parsed tick) {msg : Worker.Message} (hmsg : tickPayload py tick = .ok msg.raw) :
    Worker.readTick py msg = .ok (arrived tick) := by
  have hraw : msg.raw = (tickToWire tick).dumpsText := by
    rw [tickPayload, Json.dumps] at hmsg
    split at hmsg
    · exact (Except.ok.inj hmsg).symm
    · cases hmsg
  have hread : Json.loads py.loadsLimit msg.raw = .ok (tickToWire tick) := by
    rw [hraw]
    exact Json.loads_dumpsText (loadable_tickToWire h) ((depth_tickToWire_le tick).trans hloads)
  rw [Worker.readTick, Worker.parseTick, hread, ok_bind, dictToTick_tickToWire h, arrived]
  by_cases hfinite : (wirePrice tick).isFinite = true
  · rw [Tick.make_eq_ok hfinite, dif_pos hfinite]
    rfl
  · rw [Tick.make_infinite (Bool.eq_false_of_not_eq_true hfinite), dif_neg hfinite]
    rfl

end NexusBackend
