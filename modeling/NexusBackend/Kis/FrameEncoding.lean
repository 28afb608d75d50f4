import NexusBackend.Kis.Stream
import NexusBackend.Library.NumberText

/-!
What the parsers of data frames make of a frame that is put together: a batch of trades, which
is taken record by record, and a snapshot of the order book, which comes back as it was.
-/
namespace NexusBackend
namespace KisClient

open Python

/-! ### A batch of trades -/

/-- `flag|tr_id|count|field^field^...`. -/
def frameOf (flag trId countStr : Text) (fields : List Text) : Text :=
  flag ++ 124 :: (trId ++ 124 :: (countStr ++ 124 :: join 94 fields))

theorem envelope_frameOf {flag trId countStr : Text} (hflag : 124 ∉ flag) (hid : 124 ∉ trId)
    (hcount : 124 ∉ countStr) (fields : List Text) :
    envelope (frameOf flag trId countStr fields) = .ok (trId, countStr, join 94 fields) := by
  rw [envelope, frameOf, splitMax_append hflag, splitMax_append hid, splitMax_append hcount]
  have hlast (s : Text) : splitMax 124 0 s = [s] := by
    cases s with
    | nil => rfl
    | cons c s => rfl
  rw [hlast]

/-- A record lies where its position says. -/
theorem slice_flatten {recs : List (List Text)} (h : ∀ r ∈ recs, r.length = h0stcnt0Fields)
    (tail : List Text) {i : Nat} (hi : i < recs.length) :
    ((recs.flatten ++ tail).drop (i * h0stcnt0Fields)).take h0stcnt0Fields = recs[i] := by
  induction recs generalizing i with
  | nil => cases hi
  | cons r recs ih =>
      have hr := h r List.mem_cons_self
      rw [List.flatten_cons, List.append_assoc]
      cases i with
      | zero =>
          rw [Nat.zero_mul, List.drop_zero]
          exact List.take_left' hr
      | succ i =>
          rw [Nat.succ_mul, Nat.add_comm, ← hr, List.drop_length_add_append, hr]
          exact ih (fun r' hr' => h r' (List.mem_cons_of_mem _ hr')) (Nat.lt_of_succ_lt_succ hi)

/-- The slices of a payload are its first records, as many as were announced and are there. -/
theorem records_of_fields {payload : Text} {recs : List (List Text)} {tail : List Text}
    (hfields : splitAll 94 payload = recs.flatten ++ tail)
    (h : ∀ r ∈ recs, r.length = h0stcnt0Fields) (htail : tail.length < h0stcnt0Fields)
    (count : Int) :
    records count payload = recs.take (max 0 (min count recs.length)).toNat := by
  have hlength : (recs.flatten ++ tail).length = recs.length * h0stcnt0Fields + tail.length := by
    rw [List.length_append, List.length_flatten, List.map_congr_left h, List.map_const',
      List.sum_replicate, smul_eq_mul]
  have hcount : (if ((recs.flatten ++ tail).length : Int) < count * h0stcnt0Fields
      then ((recs.flatten ++ tail).length : Int) / h0stcnt0Fields else count).toNat =
        (max 0 (min count recs.length)).toNat := by
    have hwidth : (h0stcnt0Fields : Int) = 46 := rfl
    have htail' : (tail.length : Int) < 46 := by exact_mod_cast htail
    rw [hlength, Nat.cast_add, Nat.cast_mul, hwidth]
    by_cases hshort : (recs.length : Int) * 46 + tail.length < count * 46
    · rw [if_pos hshort]
      omega
    · rw [if_neg hshort]
      omega
  simp only [records]
  rw [hfields, hcount]
  apply List.ext_getElem
  · rw [List.length_map, List.length_range, List.length_take]
    omega
  · intro i hi hi'
    rw [List.length_take] at hi'
    rw [List.getElem_map, List.getElem_range, List.getElem_take]
    exact slice_flatten h tail (by omega)

/-- The loop over the records, as a traversal that keeps the valid ticks. -/
theorem recordsToTicks_eq_mapM (now : Nat → ClockReading) (i : Nat) (recs : List (List Text)) :
    recordsToTicks now i recs =
      List.reduceOption <$> (recs.zipIdx i).mapM fun r => recordToTick (now r.2) r.1 := by
  induction recs generalizing i with
  | nil => rfl
  | cons record rest ih =>
      rw [recordsToTicks, ih, List.zipIdx_cons, List.mapM_cons]
      cases recordToTick (now i) record with
      | error e => rfl
      | ok tick =>
          cases (rest.zipIdx (i + 1)).mapM fun r => recordToTick (now r.2) r.1 with
          | error e => rfl
          | ok ticks =>
              cases tick with
              | none => rfl
              | some tick => rfl

/-- A batch is parsed record by record, as far as the count goes and whole records are there;
without an envelope, an integer count and the topic there is nothing to parse. -/
theorem parseH0stcnt0Frame_batch (now : Nat → ClockReading) :
    (∀ (flag countStr : Text) (count : Int) (recs : List (List Text)) (partialRecord : List Text),
      124 ∉ flag → 124 ∉ countStr → intOfText countStr = .ok count →
      (∀ r ∈ recs, r.length = h0stcnt0Fields) → partialRecord.length < h0stcnt0Fields →
      (∀ field ∈ recs.flatten ++ partialRecord, 94 ∉ field) →
      parseH0stcnt0Frame now (frameOf flag trIdTick countStr (recs.flatten ++ partialRecord)) =
        List.reduceOption <$> ((recs.take (max 0 (min count recs.length)).toNat).zipIdx.mapM
          fun r => recordToTick (now r.2) r.1)) ∧
    ∀ frame : Text, (∀ flag trId countStr payload count,
        splitMax 124 3 frame = [flag, trId, countStr, payload] → intOfText countStr = .ok count →
          trId ≠ trIdTick) →
      parseH0stcnt0Frame now frame = .ok [] := by
  refine ⟨?_, ?_⟩
  · intro flag countStr count recs partialRecord hflag hcountStr hcount hrecs hpartial hfields
    have hread : readEnvelope (frameOf flag trIdTick countStr (recs.flatten ++ partialRecord)) =
        .ok (trIdTick, count, join 94 (recs.flatten ++ partialRecord)) := by
      rw [readEnvelope, envelope_frameOf hflag (by decide) hcountStr]
      change (intOfText countStr >>= _) = _
      rw [hcount]
      rfl
    rw [parseH0stcnt0Frame_eq, tradeRecords, hread]
    dsimp only
    rw [if_neg (not_not.mpr rfl), ← recordsToTicks_eq_mapM]
    congr 1
    by_cases hnil : recs.flatten ++ partialRecord = []
    · obtain ⟨hflat, -⟩ := List.append_eq_nil_iff.mp hnil
      have hempty : recs = [] := by
        cases recs with
        | nil => rfl
        | cons r recs =>
            have hr := hrecs r List.mem_cons_self
            rw [(List.append_eq_nil_iff.mp hflat).1] at hr
            cases hr
      rw [hnil, hempty]
      have hfields : splitAll 94 (join 94 []) = [].flatten ++ [[]] := rfl
      exact records_of_fields hfields (List.forall_mem_nil _) (by decide) count
    · exact records_of_fields (splitAll_join hnil hfields) hrecs hpartial count
  · intro frame hother
    rw [parseH0stcnt0Frame_eq, tradeRecords]
    cases hread : readEnvelope frame with
    | error e => rfl
    | ok unpacked =>
        obtain ⟨trId, count, payload⟩ := unpacked
        obtain ⟨⟨trId', countStr, payload'⟩, henvelope, hrest⟩ := bind_eq_ok_iff.mp hread
        obtain ⟨count', hcount, hrest⟩ := bind_eq_ok_iff.mp hrest
        cases hrest
        rw [envelope] at henvelope
        split at henvelope
        · rename_i flag trId'' countStr' payload'' hparts
          cases henvelope
          dsimp only
          rw [if_pos (hother flag trId countStr payload count hparts hcount)]
          rfl
        · cases henvelope

/-- One record and the beginning of another, where two were announced. -/
theorem parseH0stcnt0Frame_batch_short :
    let record : List Text := List.replicate 46 (text "1")
    parseH0stcnt0Frame (fun _ => noonReading)
        (frameOf (text "0") trIdTick (text "2") ([record].flatten ++ [text "005930"])) =
      List.reduceOption <$> ([record].zipIdx.mapM fun r => recordToTick noonReading r.1) := by
  intro record
  have hcaret : ∀ field ∈ [record].flatten ++ [text "005930"], 94 ∉ field := by
    decide
  exact (parseH0stcnt0Frame_batch fun _ => noonReading).1 (text "0") (text "2") 2 [record]
    [text "005930"] (by decide) (by decide) rfl (by simp [record]; rfl) (by decide) hcaret

/-! ### The rows of a snapshot -/

/-- The book that the loop over the depths builds. -/
def bookOf (symbol hms : Text) (levels : List (QuoteLevel × QuoteLevel)) : BookFields where
  symbol := strip symbol
  hms := strip hms
  asks := levels.flatMap fun level => keepLevel level.1
  bids := levels.flatMap fun level => keepLevel level.2

theorem foldlM_levels (fields : List Text) (rows : List Nat) (book : BookFields) :
    rows.foldlM (fun book i => do
        let (ask, bid) ← readLevel fields i
        return { book with asks := book.asks ++ keepLevel ask, bids := book.bids ++ keepLevel bid })
      book = (fun levels : List (QuoteLevel × QuoteLevel) => { book with
        asks := book.asks ++ levels.flatMap fun level => keepLevel level.1
        bids := book.bids ++ levels.flatMap fun level => keepLevel level.2 }) <$>
      rows.mapM (readLevel fields) := by
  induction rows generalizing book with
  | nil => simp [pure, Except.pure, Functor.map, Except.map]
  | cons i rows ih =>
      rw [List.foldlM_cons, List.mapM_cons]
      cases readLevel fields i with
      | error e => rfl
      | ok level =>
          rw [ok_bind, ok_bind]
          refine (ih _).trans ?_
          cases rows.mapM (readLevel fields) with
          | error e => rfl
          | ok levels =>
              refine congrArg Except.ok ?_
              simp [List.append_assoc]

theorem readBook_eq (fields : List Text) :
    readBook fields = (do
      let symbol ← field fields fldAspSymbol
      let hms ← field fields fldAspTime
      bookOf symbol hms <$> (List.range aspDepth).mapM (readLevel fields)) := by
  rw [readBook]
  simp only [foldlM_levels, List.nil_append]
  rfl

/-- The level pairs a price with the volume of the same row, and the price is positive. -/
def RowLevel (fields : List Text) (priceStart volumeStart row : Nat) (level : QuoteLevel) : Prop :=
  ∃ price volume, fields[priceStart + row]? = some price ∧
    fields[volumeStart + row]? = some volume ∧ intOfText (orZero price) = .ok level.price ∧
    intOfText (orZero volume) = .ok level.volume ∧ 0 < level.price

/-- The levels come from rows of the frame, in the order of these. -/
def FromRows (fields : List Text) (priceStart volumeStart : Nat) (levels : List QuoteLevel) :
    Prop :=
  ∃ rows, rows.Sublist (List.range aspDepth) ∧
    List.Forall₂ (RowLevel fields priceStart volumeStart) rows levels

theorem field_eq_ok_iff {fields : List Text} {i : Nat} {s : Text} :
    field fields i = .ok s ↔ fields[i]? = some s := by
  rw [field]
  cases fields[i]? with
  | none =>
      constructor
      · intro h
        cases h
      · intro h
        cases h
  | some s' => exact ⟨fun h => congrArg some (Except.ok.inj h), fun h => by cases h; rfl⟩

theorem readLevel_rows {fields : List Text} {i : Nat} {ask bid : QuoteLevel}
    (h : readLevel fields i = .ok (ask, bid)) :
    (0 < ask.price → RowLevel fields fldAspAskpStart fldAspAskrsqnStart i ask) ∧
      (0 < bid.price → RowLevel fields fldAspBidpStart fldAspBidrsqnStart i bid) := by
  obtain ⟨askPriceText, h1, h⟩ := bind_eq_ok_iff.mp h
  obtain ⟨askPrice, h2, h⟩ := bind_eq_ok_iff.mp h
  obtain ⟨bidPriceText, h3, h⟩ := bind_eq_ok_iff.mp h
  obtain ⟨bidPrice, h4, h⟩ := bind_eq_ok_iff.mp h
  obtain ⟨askVolumeText, h5, h⟩ := bind_eq_ok_iff.mp h
  obtain ⟨askVolume, h6, h⟩ := bind_eq_ok_iff.mp h
  obtain ⟨bidVolumeText, h7, h⟩ := bind_eq_ok_iff.mp h
  obtain ⟨bidVolume, h8, h⟩ := bind_eq_ok_iff.mp h
  cases h
  exact ⟨fun hpos => ⟨_, _, field_eq_ok_iff.mp h1, field_eq_ok_iff.mp h5, h2, h6, hpos⟩,
    fun hpos => ⟨_, _, field_eq_ok_iff.mp h3, field_eq_ok_iff.mp h7, h4, h8, hpos⟩⟩

/-- A row that is left out takes its price and its volume with it. -/
theorem kept_rows (side : QuoteLevel × QuoteLevel → QuoteLevel) {R : Nat → QuoteLevel → Prop}
    {rows : List Nat} {levels : List (QuoteLevel × QuoteLevel)}
    (h : List.Forall₂ (fun i level => 0 < (side level).price → R i (side level)) rows levels) :
    ∃ kept, kept.Sublist rows ∧
      List.Forall₂ R kept (levels.flatMap fun level => keepLevel (side level)) := by
  induction h with
  | nil => exact ⟨[], List.Sublist.refl _, .nil⟩
  | @cons i level rows levels hrow _ ih =>
      obtain ⟨kept, hsub, hkept⟩ := ih
      rw [List.flatMap_cons, keepLevel]
      by_cases hpos : 0 < (side level).price
      · rw [if_pos hpos]
        exact ⟨i :: kept, hsub.cons_cons i, .cons (hrow hpos) hkept⟩
      · rw [if_neg hpos]
        exact ⟨kept, hsub.cons i, hkept⟩

theorem readBook_rows {fields : List Text} {book : BookFields} (h : readBook fields = .ok book) :
    FromRows fields fldAspAskpStart fldAspAskrsqnStart book.asks ∧
      FromRows fields fldAspBidpStart fldAspBidrsqnStart book.bids := by
  rw [readBook_eq] at h
  obtain ⟨symbol, -, h⟩ := bind_eq_ok_iff.mp h
  obtain ⟨hms, -, h⟩ := bind_eq_ok_iff.mp h
  cases hlevels : (List.range aspDepth).mapM (readLevel fields) with
  | error e =>
      rw [hlevels] at h
      cases h
  | ok levels =>
      rw [hlevels] at h
      cases h
      have hrows := mapM_eq_ok_iff.mp hlevels
      exact ⟨kept_rows Prod.fst (hrows.imp fun _ _ hlevel => (readLevel_rows hlevel).1),
        kept_rows Prod.snd (hrows.imp fun _ _ hlevel => (readLevel_rows hlevel).2)⟩

/-- The fields of a frame, where its envelope unpacks. -/
def PayloadFields (frame : Text) (fields : List Text) : Prop :=
  ∃ flag trId countStr payload, splitMax 124 3 frame = [flag, trId, countStr, payload] ∧
    fields = splitAll 94 payload

/-- Between one and five levels, each from a row of the frame, in the order of the rows. -/
def Side (fields : List Text) (priceStart volumeStart : Nat) (levels : List QuoteLevel) : Prop :=
  1 ≤ levels.length ∧ levels.length ≤ aspDepth ∧ FromRows fields priceStart volumeStart levels

/-- What a snapshot of the frame holds. -/
def Faithful (frame : Text) (quote : Quote) : Prop :=
  quote.symbol ≠ [] ∧ ∃ fields, PayloadFields frame fields ∧
    Side fields fldAspAskpStart fldAspAskrsqnStart quote.asks ∧
    Side fields fldAspBidpStart fldAspBidrsqnStart quote.bids

theorem side_of_rows {fields : List Text} {priceStart volumeStart : Nat} {levels : List QuoteLevel}
    (h : FromRows fields priceStart volumeStart levels) (hne : levels ≠ []) :
    Side fields priceStart volumeStart levels := by
  refine ⟨List.length_pos_of_ne_nil hne, ?_, h⟩
  obtain ⟨rows, hsub, hrows⟩ := h
  rw [← hrows.length_eq]
  exact hsub.length_le.trans_eq List.length_range

theorem bookQuotes_eq_ok {now : ClockReading} {book : BookFields} {quotes : List Quote}
    (h : bookQuotes now book = .ok quotes) : ∀ quote ∈ quotes, quote.symbol = book.symbol ∧
      quote.asks = book.asks ∧ quote.bids = book.bids ∧ book.symbol ≠ [] ∧ book.asks ≠ [] ∧
      book.bids ≠ [] := by
  intro quote hmem
  rw [bookQuotes] at h
  split at h
  · cases h
    cases hmem
  · rename_i hfull
    simp only [not_or] at hfull
    obtain ⟨ts, -, h⟩ := bind_eq_ok_iff.mp h
    cases h
    obtain rfl := List.mem_singleton.mp hmem
    exact ⟨rfl, rfl, rfl, hfull⟩

theorem tryExcept_some {α : Type} {x : Except Exn α} {classes : List ExnKind} {a : α}
    (h : tryExcept (some <$> x) classes (fun _ => .ok none) = .ok (some a)) : x = .ok a := by
  cases x with
  | ok b =>
      cases h
      rfl
  | error e =>
      change (if e.isInstance classes then _ else _) = _ at h
      split at h <;> cases h

theorem envelope_eq_ok {frame trId countStr payload : Text}
    (h : envelope frame = .ok (trId, countStr, payload)) :
    ∃ flag, splitMax 124 3 frame = [flag, trId, countStr, payload] := by
  rw [envelope] at h
  split at h
  · rename_i flag trId' countStr' payload' hparts
    cases h
    exact ⟨flag, hparts⟩
  · cases h

theorem parseH0stasp0Frame_faithful {now : ClockReading} {frame : Text} {quotes : List Quote}
    (h : parseH0stasp0Frame now frame = .ok quotes) : ∀ quote ∈ quotes, Faithful frame quote := by
  intro quote hmem
  obtain ⟨unpacked, hunpacked, h⟩ := bind_eq_ok_iff.mp h
  cases unpacked with
  | none =>
      cases h
      cases hmem
  | some unpacked =>
      obtain ⟨trId, countStr, payload⟩ := unpacked
      obtain ⟨flag, hparts⟩ := envelope_eq_ok (tryExcept_some hunpacked)
      dsimp only at h
      split at h
      · cases h
        cases hmem
      · obtain ⟨book, hbook, h⟩ := bind_eq_ok_iff.mp h
        cases book with
        | none =>
            cases h
            cases hmem
        | some book =>
            obtain ⟨hasks, hbids⟩ := readBook_rows (tryExcept_some hbook)
            obtain ⟨hsymbol, hqasks, hqbids, hne, haskne, hbidne⟩ := bookQuotes_eq_ok h quote hmem
            refine ⟨hsymbol ▸ hne, _, ⟨flag, trId, countStr, payload, hparts, rfl⟩, ?_, ?_⟩
            · rw [hqasks]
              exact side_of_rows hasks haskne
            · rw [hqbids]
              exact side_of_rows hbids hbidne

/-! ### Writing a snapshot -/

/-- One to five levels on each side, with positive prices. -/
structure DepthBook where
  asks : List QuoteLevel
  bids : List QuoteLevel
  asks_depth : 1 ≤ asks.length ∧ asks.length ≤ aspDepth
  bids_depth : 1 ≤ bids.length ∧ bids.length ≤ aspDepth
  asks_positive : ∀ level ∈ asks, 0 < level.price
  bids_positive : ∀ level ∈ bids, 0 < level.price

/-- Five texts of one array of the book: the levels and then empty rows. -/
def padRows (blank : Text) (texts : List Text) : List Text :=
  texts ++ List.replicate (aspDepth - texts.length) blank

/-- The frame of a snapshot. -/
def writeBook (flag countStr symbol hms blank : Text) (book : DepthBook) (more : List Text) :
    Except Exn Text := do
  let askPrices ← book.asks.mapM fun level => intStr level.price
  let bidPrices ← book.bids.mapM fun level => intStr level.price
  let askVolumes ← book.asks.mapM fun level => intStr level.volume
  let bidVolumes ← book.bids.mapM fun level => intStr level.volume
  return frameOf flag trIdQuote countStr ([symbol, hms] ++ padRows blank askPrices ++
    padRows blank bidPrices ++ padRows blank askVolumes ++ padRows blank bidVolumes ++ more)

/-- The empty row. -/
def emptyLevel : QuoteLevel := ⟨0, 0⟩

def padLevels (levels : List QuoteLevel) : List QuoteLevel :=
  levels ++ List.replicate (aspDepth - levels.length) emptyLevel

theorem length_padLevels {levels : List QuoteLevel} (h : levels.length ≤ aspDepth) :
    (padLevels levels).length = aspDepth := by
  rw [padLevels, List.length_append, List.length_replicate]
  omega

theorem keep_padLevels {levels : List QuoteLevel} (h : ∀ level ∈ levels, 0 < level.price) :
    (padLevels levels).flatMap keepLevel = levels := by
  have hkept : levels.flatMap keepLevel = levels := by
    induction levels with
    | nil => rfl
    | cons level levels ih =>
        rw [List.flatMap_cons, keepLevel, if_pos (h level List.mem_cons_self),
          ih fun l hl => h l (List.mem_cons_of_mem _ hl)]
        rfl
  have hempty (n : Nat) : (List.replicate n emptyLevel).flatMap keepLevel = [] := by
    rw [List.flatMap_eq_nil_iff]
    intro level hlevel
    rw [List.eq_of_mem_replicate hlevel]
    rfl
  rw [padLevels, List.flatMap_append, hkept, hempty, List.append_nil]

/-- A text that reads as this number. -/
def Reads (value : QuoteLevel → Int) (s : Text) (level : QuoteLevel) : Prop :=
  94 ∉ s ∧ intOfText (orZero s) = .ok (value level)

theorem reads_intStr {n : Int} {s : Text} (h : intStr n = .ok s) :
    94 ∉ s ∧ intOfText (orZero s) = .ok n := by
  rw [intStr] at h
  split at h
  · rename_i hdigits
    cases h
    have hvalid := intLexeme_valid n
    have hchars : ∀ c ∈ intText n, Lexeme.IsNumberChar c := by
      rw [intText_eq]
      exact Lexeme.signedText_chars hvalid _
    have hread := intOfText_intText hdigits
    refine ⟨fun hmem => absurd (hchars 94 hmem) (by decide), ?_⟩
    rw [orZero, strip_number hchars]
    split
    · rename_i hnil
      rw [hnil] at hread
      cases hread
    · exact hread
  · cases h

theorem reads_padRows (value : QuoteLevel → Int) {blank : Text} {levels : List QuoteLevel}
    {texts : List Text} (hzero : value emptyLevel = 0) (hcaret : 94 ∉ blank)
    (hblank : intOfText (orZero blank) = .ok 0)
    (h : levels.mapM (fun level => intStr (value level)) = .ok texts) :
    List.Forall₂ (Reads value) (padRows blank texts) (padLevels levels) := by
  have htexts := mapM_eq_ok_iff.mp h
  rw [padRows, padLevels, htexts.length_eq]
  apply List.rel_append
  · exact htexts.flip.imp fun _ _ => reads_intStr
  · rw [List.forall₂_iff_get]
    refine ⟨by simp, fun i h1 h2 => ?_⟩
    rw [List.get_eq_getElem, List.get_eq_getElem, List.getElem_replicate, List.getElem_replicate]
    exact ⟨hcaret, hzero ▸ hblank⟩

/-- A block of fields lies behind the fields before it. -/
theorem getElem?_block {pre block post : List Text} {i : Nat} (hi : i < block.length) :
    (pre ++ block ++ post)[pre.length + i]? = block[i]? := by
  rw [List.append_assoc, List.getElem?_append_right (Nat.le_add_right _ _),
    Nat.add_sub_cancel_left, List.getElem?_append_left hi]

theorem reads_at {value : QuoteLevel → Int} {fields pre block post : List Text}
    {levels : List QuoteLevel} {start i : Nat} (hfields : fields = pre ++ block ++ post)
    (hpre : pre.length = start) (h : List.Forall₂ (Reads value) block levels)
    (hi : i < levels.length) :
    ∃ s, field fields (start + i) = .ok s ∧ intOfText (orZero s) = .ok (value levels[i]) := by
  have hblock : i < block.length := h.length_eq ▸ hi
  refine ⟨block[i], ?_, ?_⟩
  · rw [field_eq_ok_iff, hfields, ← hpre, getElem?_block hblock]
    exact List.getElem?_eq_getElem hblock
  · exact ((List.forall₂_iff_get.mp h).2 i hblock hi).2

/-- Four arrays, each of the depth of the book, in their places of the fields. -/
structure Layout (fields : List Text) (asks bids : List QuoteLevel) : Prop where
  askPrices : ∃ pre block post, fields = pre ++ block ++ post ∧ pre.length = fldAspAskpStart ∧
    List.Forall₂ (Reads QuoteLevel.price) block asks
  bidPrices : ∃ pre block post, fields = pre ++ block ++ post ∧ pre.length = fldAspBidpStart ∧
    List.Forall₂ (Reads QuoteLevel.price) block bids
  askVolumes : ∃ pre block post, fields = pre ++ block ++ post ∧
    pre.length = fldAspAskrsqnStart ∧ List.Forall₂ (Reads QuoteLevel.volume) block asks
  bidVolumes : ∃ pre block post, fields = pre ++ block ++ post ∧
    pre.length = fldAspBidrsqnStart ∧ List.Forall₂ (Reads QuoteLevel.volume) block bids

theorem Layout.readLevel {fields : List Text} {asks bids : List QuoteLevel}
    (h : Layout fields asks bids) {i : Nat} (hask : i < asks.length) (hbid : i < bids.length) :
    readLevel fields i = .ok (asks[i], bids[i]) := by
  obtain ⟨_, _, _, hfields, hpre, hreads⟩ := h.askPrices
  obtain ⟨askPrice, h1, h2⟩ := reads_at hfields hpre hreads hask
  obtain ⟨_, _, _, hfields, hpre, hreads⟩ := h.bidPrices
  obtain ⟨bidPrice, h3, h4⟩ := reads_at hfields hpre hreads hbid
  obtain ⟨_, _, _, hfields, hpre, hreads⟩ := h.askVolumes
  obtain ⟨askVolume, h5, h6⟩ := reads_at hfields hpre hreads hask
  obtain ⟨_, _, _, hfields, hpre, hreads⟩ := h.bidVolumes
  obtain ⟨bidVolume, h7, h8⟩ := reads_at hfields hpre hreads hbid
  rw [KisClient.readLevel, h1, ok_bind, h2, ok_bind, h3, ok_bind, h4, ok_bind, h5, ok_bind, h6,
    ok_bind, h7, ok_bind, h8]
  rfl

theorem Layout.readLevels {fields : List Text} {asks bids : List QuoteLevel}
    (h : Layout fields asks bids) (hask : asks.length = aspDepth) (hbid : bids.length = aspDepth) :
    (List.range aspDepth).mapM (KisClient.readLevel fields) = .ok (asks.zip bids) := by
  rw [mapM_eq_ok_iff, List.forall₂_iff_get]
  refine ⟨by simp [hask, hbid], fun i hi hi' => ?_⟩
  rw [List.length_range] at hi
  have haski : i < asks.length := hask.symm ▸ hi
  have hbidi : i < bids.length := hbid.symm ▸ hi
  rw [List.get_eq_getElem, List.get_eq_getElem, List.getElem_range, List.getElem_zip]
  exact h.readLevel haski hbidi

theorem layout_of_blocks {symbol hms : Text} {a b c d more : List Text}
    {asks bids : List QuoteLevel} (ha : List.Forall₂ (Reads QuoteLevel.price) a asks)
    (hb : List.Forall₂ (Reads QuoteLevel.price) b bids)
    (hc : List.Forall₂ (Reads QuoteLevel.volume) c asks)
    (hd : List.Forall₂ (Reads QuoteLevel.volume) d bids) (hasks : asks.length = aspDepth)
    (hbids : bids.length = aspDepth) :
    Layout ([symbol, hms] ++ a ++ b ++ c ++ d ++ more) asks bids := by
  have hla : a.length = 5 := ha.length_eq.trans hasks
  have hlb : b.length = 5 := hb.length_eq.trans hbids
  have hlc : c.length = 5 := hc.length_eq.trans hasks
  refine ⟨⟨[symbol, hms], a, b ++ c ++ d ++ more, ?_, rfl, ha⟩,
    ⟨[symbol, hms] ++ a, b, c ++ d ++ more, ?_, ?_, hb⟩,
    ⟨[symbol, hms] ++ a ++ b, c, d ++ more, ?_, ?_, hc⟩,
    ⟨[symbol, hms] ++ a ++ b ++ c, d, more, rfl, ?_, hd⟩⟩
  · simp only [List.append_assoc]
  · simp only [List.append_assoc]
  · simp [hla, fldAspBidpStart]
  · simp only [List.append_assoc]
  · simp [hla, hlb, fldAspAskrsqnStart]
  · simp [hla, hlb, hlc, fldAspBidrsqnStart]

theorem caret_of_reads {value : QuoteLevel → Int} {block : List Text} {levels : List QuoteLevel}
    (h : List.Forall₂ (Reads value) block levels) : ∀ s ∈ block, 94 ∉ s := by
  induction h with
  | nil => exact List.forall_mem_nil _
  | cons hread _ ih => exact List.forall_mem_cons.mpr ⟨hread.1, ih⟩

theorem keep_zip_fst {asks bids : List QuoteLevel} (h : asks.length = bids.length) :
    (asks.zip bids).flatMap (fun level => keepLevel level.1) = asks.flatMap keepLevel := by
  rw [← List.flatMap_map, List.map_fst_zip h.le]

theorem keep_zip_snd {asks bids : List QuoteLevel} (h : asks.length = bids.length) :
    (asks.zip bids).flatMap (fun level => keepLevel level.2) = bids.flatMap keepLevel := by
  rw [← List.flatMap_map, List.map_snd_zip h.ge]

theorem bookQuotes_full (now : ClockReading) {book : BookFields} (hsymbol : book.symbol ≠ [])
    (hasks : book.asks ≠ []) (hbids : book.bids ≠ []) :
    ∃ ts, bookQuotes now book = .ok [⟨book.symbol, ts, book.bids, book.asks⟩] := by
  have hanchor := (anchor_ends now book.hms).mono (fun _ h => h)
    fun e h => Exn.isInstance_of_mem [.valueError, .indexError] h (by simp)
  obtain ⟨ts, hts, -⟩ := (ends_tryExcept_all (E := fun _ => False) hanchor fun _ =>
    ends_ok (a := now.utcNow) trivial).returns
  refine ⟨ts.toDateTime, ?_⟩
  rw [bookQuotes, if_neg fun h => h.elim hsymbol fun h => h.elim hasks hbids, hts]
  rfl

theorem parseH0stasp0Frame_fields (now : ClockReading) {flag trId countStr symbol hms : Text}
    {rest : List Text} {asks bids : List QuoteLevel} (hflag : 124 ∉ flag) (hid : 124 ∉ trId)
    (hcount : 124 ∉ countStr) (hcaret : ∀ field ∈ symbol :: hms :: rest, 94 ∉ field)
    (hlength : 20 ≤ rest.length) (hlayout : Layout (symbol :: hms :: rest) asks bids)
    (hasks : asks.length = aspDepth) (hbids : bids.length = aspDepth) :
    parseH0stasp0Frame now (frameOf flag trId countStr (symbol :: hms :: rest)) =
      bookQuotes now ⟨strip symbol, strip hms, asks.flatMap keepLevel, bids.flatMap keepLevel⟩ := by
  have hbook : readBook (symbol :: hms :: rest) =
      .ok ⟨strip symbol, strip hms, asks.flatMap keepLevel, bids.flatMap keepLevel⟩ := by
    rw [readBook_eq, hlayout.readLevels hasks hbids]
    change Except.ok (bookOf symbol hms (asks.zip bids)) = _
    rw [bookOf, keep_zip_fst (hasks.trans hbids.symm), keep_zip_snd (hasks.trans hbids.symm)]
  have hlong : ¬ (symbol :: hms :: rest).length < h0stasp0MinFields := by
    simp only [List.length_cons, h0stasp0MinFields]
    omega
  rw [parseH0stasp0Frame, envelope_frameOf hflag hid hcount]
  change (if (splitAll 94 (join 94 (symbol :: hms :: rest))).length < h0stasp0MinFields then _
    else _) = _
  rw [splitAll_join (List.cons_ne_nil _ _) hcaret, if_neg hlong, hbook]
  rfl

/-- A snapshot that is written is parsed to what was written. -/
theorem parse_writeBook (now : ClockReading) {flag countStr symbol hms blank : Text}
    {book : DepthBook} {more : List Text} {frame : Text} (hflag : 124 ∉ flag)
    (hcount : 124 ∉ countStr) (hsymbol : symbol ≠ []) (hstrip : strip symbol = symbol)
    (hcaret : ∀ field ∈ [symbol, hms, blank] ++ more, 94 ∉ field)
    (hblank : intOfText (orZero blank) = .ok 0)
    (h : writeBook flag countStr symbol hms blank book more = .ok frame) :
    ∃ ts, parseH0stasp0Frame now frame = .ok [⟨symbol, ts, book.bids, book.asks⟩] := by
  obtain ⟨askPrices, h1, h⟩ := bind_eq_ok_iff.mp h
  obtain ⟨bidPrices, h2, h⟩ := bind_eq_ok_iff.mp h
  obtain ⟨askVolumes, h3, h⟩ := bind_eq_ok_iff.mp h
  obtain ⟨bidVolumes, h4, h⟩ := bind_eq_ok_iff.mp h
  obtain rfl := Except.ok.inj h
  have hblankCaret : 94 ∉ blank := hcaret blank (by simp)
  have r1 := reads_padRows QuoteLevel.price rfl hblankCaret hblank h1
  have r2 := reads_padRows QuoteLevel.price rfl hblankCaret hblank h2
  have r3 := reads_padRows QuoteLevel.volume rfl hblankCaret hblank h3
  have r4 := reads_padRows QuoteLevel.volume rfl hblankCaret hblank h4
  have hasks := length_padLevels book.asks_depth.2
  have hbids := length_padLevels book.bids_depth.2
  generalize padRows blank askPrices = a at r1 ⊢
  generalize padRows blank bidPrices = b at r2 ⊢
  generalize padRows blank askVolumes = c at r3 ⊢
  generalize padRows blank bidVolumes = d at r4 ⊢
  have l1 : a.length = 5 := r1.length_eq.trans hasks
  have l2 : b.length = 5 := r2.length_eq.trans hbids
  have l3 : c.length = 5 := r3.length_eq.trans hasks
  have l4 : d.length = 5 := r4.length_eq.trans hbids
  have hfields : ∀ field ∈ [symbol, hms] ++ a ++ b ++ c ++ d ++ more, 94 ∉ field := by
    intro field hmem
    simp only [List.mem_append] at hmem
    rcases hmem with ((((hmem | hmem) | hmem) | hmem) | hmem) | hmem
    · exact hcaret field (List.mem_append_left _ (by simp at hmem ⊢; tauto))
    · exact caret_of_reads r1 field hmem
    · exact caret_of_reads r2 field hmem
    · exact caret_of_reads r3 field hmem
    · exact caret_of_reads r4 field hmem
    · exact hcaret field (List.mem_append_right _ hmem)
  have hlayout : Layout ([symbol, hms] ++ a ++ b ++ c ++ d ++ more) (padLevels book.asks)
      (padLevels book.bids) := layout_of_blocks r1 r2 r3 r4 hasks hbids
  have hid : 124 ∉ trIdQuote := by decide
  have hlong : 20 ≤ (a ++ b ++ c ++ d ++ more).length := by
    simp only [List.length_append, l1, l2, l3, l4]
    omega
  simp only [List.append_assoc, List.cons_append, List.nil_append] at hfields hlayout hlong ⊢
  rw [parseH0stasp0Frame_fields now hflag hid hcount hfields hlong hlayout hasks hbids,
    keep_padLevels book.asks_positive, keep_padLevels book.bids_positive, hstrip]
  exact bookQuotes_full now hsymbol (List.ne_nil_of_length_pos book.asks_depth.1)
    (List.ne_nil_of_length_pos book.bids_depth.1)

/-- A frame of the order book never raises and holds at most one snapshot, whose levels are
rows of the frame; and a snapshot that is written comes back. -/
theorem parseH0stasp0Frame_snapshot (now : ClockReading) :
    (∀ frame, ∃ quotes, parseH0stasp0Frame now frame = .ok quotes ∧ quotes.length ≤ 1 ∧
      ∀ quote ∈ quotes, Faithful frame quote) ∧
    ∀ (flag countStr symbol hms blank : Text) (book : DepthBook) (more : List Text) (frame : Text),
      124 ∉ flag → 124 ∉ countStr → symbol ≠ [] → strip symbol = symbol →
      (∀ field ∈ [symbol, hms, blank] ++ more, 94 ∉ field) → intOfText (orZero blank) = .ok 0 →
      writeBook flag countStr symbol hms blank book more = .ok frame →
      ∃ ts, parseH0stasp0Frame now frame = .ok [⟨symbol, ts, book.bids, book.asks⟩] := by
  refine ⟨?_, ?_⟩
  · intro frame
    obtain ⟨quotes, hparse, hlength⟩ := parseH0stasp0Frame_ok now frame
    exact ⟨quotes, hparse, hlength, parseH0stasp0Frame_faithful hparse⟩
  · intro flag countStr symbol hms blank book more frame hflag hcount hsymbol hstrip hcaret hblank h
    exact parse_writeBook now hflag hcount hsymbol hstrip hcaret hblank h

/-- Two levels against one. -/
def smallBook : DepthBook where
  asks := [⟨79100, 12⟩, ⟨79200, 5⟩]
  bids := [⟨79000, 30⟩]
  asks_depth := by decide
  bids_depth := by decide
  asks_positive := by decide
  bids_positive := by decide

theorem parseH0stasp0Frame_snapshot_small :
    ∃ frame ts, writeBook (text "0") (text "1") (text "005930") (text "120000") [] smallBook [] =
        .ok frame ∧
      parseH0stasp0Frame noonReading frame =
        .ok [⟨text "005930", ts, smallBook.bids, smallBook.asks⟩] := by
  have hcaret : ∀ field ∈ [text "005930", text "120000", []] ++ [], 94 ∉ field := by decide
  obtain ⟨ts, hparse⟩ := (parseH0stasp0Frame_snapshot noonReading).2 (text "0") (text "1")
    (text "005930") (text "120000") [] smallBook [] _ (by decide) (by decide) (by decide)
    (by decide) hcaret rfl rfl
  exact ⟨_, ts, rfl, hparse⟩

end KisClient
end NexusBackend
