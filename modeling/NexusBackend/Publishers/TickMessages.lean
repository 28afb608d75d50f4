import NexusBackend.Persistence.TickWire
import NexusBackend.Publishers.UsQuotes

/-!
The message of a publisher that makes its own ticks, as the observer and the worker read it. The
time is cut to milliseconds, and a price that is no finite number makes no tick.
-/
namespace NexusBackend

open Python

namespace UsPolling.WireTick

/-- `Decimal(str(d["price"]))`. -/
def decimal (t : WireTick) : Decimal := (Decimal.ofText? t.price.text).getD (.nan false)

/-- The tick that the dictionary reads as. -/
def arrived (t : WireTick) (now : UtcTime) : Option Tick :=
  if h : t.decimal.isFinite = true then
    some ⟨t.symbol, UtcTime.toDateTime ⟨now.date, now.time.cutToMillis⟩, t.decimal, t.volume,
      t.side, h⟩
  else none

/-- A dictionary made at the time `now`, of a text without surrogates and of numbers of the
interpreter. -/
structure Made (t : WireTick) (now : UtcTime) : Prop where
  symbol : Json.IsUnicode t.symbol
  ts : t.ts = now.toDateTime.isoformatMilliseconds
  price : ∀ q, t.price = .finite q → IsDyadic q
  volume : (natDigits t.volume.natAbs).length ≤ maxIntDigits

variable {t : WireTick} {now : UtcTime}

theorem decimal_spec (h : ∀ q, t.price = .finite q → IsDyadic q) :
    Decimal.ofText t.price.text = .ok t.decimal ∧
      (t.decimal.isFinite = true ↔ ∃ q, t.price = .finite q) ∧
      (t.decimal.isFinite = true → t.decimal.toFloat = t.price) := by
  rw [decimal, Decimal.ofText]
  cases hx : t.price with
  | finite q =>
      obtain ⟨d, hd, hfinite, hfloat⟩ := Decimal.ofText?_text (h q hx)
      rw [hd]
      exact ⟨rfl, iff_of_true hfinite ⟨q, rfl⟩, fun _ => hfloat⟩
  | inf negative =>
      have hnone : ¬ ∃ q, Python.Float.inf negative = .finite q := by
        rintro ⟨q, hq⟩
        cases hq
      cases negative
      all_goals exact ⟨rfl, iff_of_false Bool.false_ne_true hnone, fun h => by cases h⟩
  | nan =>
      have hnone : ¬ ∃ q, Python.Float.nan = .finite q := by
        rintro ⟨q, hq⟩
        cases hq
      exact ⟨rfl, iff_of_false Bool.false_ne_true hnone, fun h => by cases h⟩

theorem arrived_isSome_iff (h : t.Made now) :
    (t.arrived now).isSome = true ↔ ∃ q, t.price = .finite q := by
  rw [arrived, ← (decimal_spec h.price).2.1]
  split
  · rename_i hfinite
    exact iff_of_true rfl hfinite
  · rename_i hinfinite
    exact iff_of_false Bool.false_ne_true hinfinite

theorem loadable_toJson (h : t.Made now) : t.toJson.Loadable := by
  have hts : Json.IsUnicode t.ts := by
    rw [h.ts]
    exact Json.isUnicode_of_ascii (isoformatMilliseconds_ascii now)
  have hside : Json.IsUnicode t.side.value := by cases t.side <;> decide
  apply Json.loadable_obj
  · exact (by decide : [text "symbol", text "ts", text "price", text "volume", text "side"].Nodup)
  · simp only [List.forall_mem_cons]
    exact ⟨⟨by decide, h.symbol⟩, ⟨by decide, hts⟩, ⟨by decide, h.price⟩, ⟨by decide, h.volume⟩,
      ⟨by decide, hside⟩, List.forall_mem_nil _⟩

theorem depth_toJson_le (t : WireTick) : t.toJson.depth ≤ 1 := by
  apply Json.depth_obj_le
  simp only [List.map_cons, List.map_nil, List.forall_mem_cons]
  exact ⟨le_rfl, le_rfl, le_rfl, le_rfl, le_rfl, List.forall_mem_nil _⟩

/-- `_dict_to_tick`, of the publisher's own dictionary. -/
theorem dictToTick_toJson (pr : Json.Printing) (h : t.Made now) :
    dictToTick pr t.toJson =
      match t.arrived now with
      | some tick => .ok tick
      | none => raise .validationError := by
  have hside : optional t.toJson "side" (.str (text "buy")) (·.toStr pr) = .ok t.side.value :=
    toStr_str pr t.side.value
  have hsymbol : required t.toJson "symbol" (·.toStr pr) = .ok t.symbol := toStr_str pr t.symbol
  have hts : required t.toJson "ts" (fun v => v.toStr pr >>= fromisoformat) =
      .ok (UtcTime.toDateTime ⟨now.date, now.time.cutToMillis⟩) := by
    have hindex : t.toJson.index (text "ts") = .ok (.str t.ts) := rfl
    rw [required, hindex, ok_bind, toStr_str, ok_bind, fromisoformat, h.ts,
      fromisoformat?_isoformatMilliseconds]
  have hprice : required t.toJson "price" (fun v => v.toStr pr >>= Decimal.ofText) =
      .ok t.decimal := by
    have hindex : t.toJson.index (text "price") = .ok (.float t.price) := rfl
    have hstr : (Json.float t.price).toStr pr = .ok t.price.text := if_pos (Nat.zero_le _)
    rw [required, hindex, ok_bind, hstr, ok_bind, (decimal_spec h.price).1]
  have hvolume : required t.toJson "volume" Json.toInt = .ok t.volume := rfl
  have hsideValue : (if asciiLower t.side.value = text "sell" then TickSide.sell else .buy) =
      t.side := by
    cases t.side <;> decide
  simp only [dictToTick, hside, hsymbol, hts, hprice, hvolume, ok_bind, hsideValue, arrived,
    Tick.make]
  split
  · rfl
  · rfl

/-- The worker reads the same tick from the message, and skips one that makes no tick. -/
theorem readTick_toJson {py : Worker.Interpreter} (hloads : 1 ≤ py.loadsLimit) (h : t.Made now)
    {msg : Worker.Message} (hmsg : t.toJson.dumps py.toPrinting = .ok msg.raw) :
    Worker.readTick py msg = .ok (t.arrived now) := by
  have hraw : msg.raw = t.toJson.dumpsText := by
    rw [Json.dumps] at hmsg
    split at hmsg
    · exact (Except.ok.inj hmsg).symm
    · cases hmsg
  have hread : Json.loads py.loadsLimit msg.raw = .ok t.toJson := by
    rw [hraw]
    exact Json.loads_dumpsText (loadable_toJson h) ((depth_toJson_le t).trans hloads)
  rw [Worker.readTick, Worker.parseTick, hread, ok_bind, dictToTick_toJson _ h]
  cases t.arrived now with
  | some tick => rfl
  | none => rfl

end UsPolling.WireTick

end NexusBackend
