import NexusBackend.Kis.Account

/-!
Which bodies the two account clients decode. What they raise themselves is `KisAuthError` or
`KisUpstreamError`; whatever else gets out of a decoder has slipped through.
-/
namespace NexusBackend

open Python

/-- The errors that the clients declare. -/
def clientErrors : List ExnKind := [kisAuthError, kisUpstreamError]

def isForeign (e : Exn) : Prop := e.isInstance clientErrors = false

/-- An error of the language, if it is an error at all. -/
abbrev Foreign {α : Type} (x : Except Exn α) : Prop := Ends (fun _ => True) isForeign x

section
variable {α β : Type}

theorem foreign_ok (a : α) : Foreign (.ok a : Except Exn α) := ends_ok trivial

theorem foreign_kind {x : Except Exn α} {kind : ExnKind}
    (h : Ends (fun _ => True) (fun e => e.kind = kind) x)
    (hkind : (⟨kind, []⟩ : Exn).isInstance clientErrors = false) : Foreign x := by
  refine h.mono (fun _ => id) ?_
  rintro ⟨kind', message⟩ rfl
  exact hkind

theorem foreign_raise {kind : ExnKind} (h : (⟨kind, []⟩ : Exn).isInstance clientErrors = false) :
    Foreign (raise kind : Except Exn α) := ends_error h

theorem not_escapes_declared {kind : ExnKind} (h : kind ∈ clientErrors) (message : Text) :
    ¬ Escapes clientErrors (raise kind message : Except Exn α) := by
  rintro ⟨e, heq, he⟩
  obtain rfl := Except.error.inj heq
  rw [Exn.isInstance_of_mem clientErrors rfl h] at he
  cases he

theorem kisAuthError_mem : kisAuthError ∈ clientErrors := List.mem_cons_self

theorem kisUpstreamError_mem : kisUpstreamError ∈ clientErrors :=
  List.mem_cons_of_mem _ List.mem_cons_self

theorem Foreign.bind {x : Except Exn β} {f : β → Except Exn α} (hx : Foreign x)
    (hf : ∀ b, Foreign (f b)) : Foreign (x >>= f) := ends_bind hx fun b _ => hf b

theorem Foreign.map {x : Except Exn β} (hx : Foreign x) (f : β → α) : Foreign (f <$> x) :=
  ends_map hx fun _ _ => trivial

theorem Foreign.of_map {x : Except Exn β} {f : β → α} (h : Foreign (f <$> x)) : Foreign x := by
  refine ⟨fun _ _ => trivial, ?_⟩
  intro e he
  rw [he] at h
  exact h.2 e rfl

theorem Foreign.forM {f : β → Except Exn Unit} (hf : ∀ b, Foreign (f b)) (xs : List β) :
    Foreign (xs.forM f) := by
  induction xs with
  | nil => exact foreign_ok ()
  | cons x xs ih => exact (hf x).bind fun _ => ih

theorem Foreign.mapM {f : β → Except Exn α} (hf : ∀ b, Foreign (f b)) (xs : List β) :
    Foreign (xs.mapM f) := by
  induction xs with
  | nil => exact foreign_ok []
  | cons x xs ih =>
      rw [List.mapM_cons]
      exact (hf x).bind fun _ => ih.bind fun _ => foreign_ok _

end

theorem foreign_index (v : Json) (key : Text) : Foreign (v.index key) := by
  cases v with
  | obj pairs =>
      rw [Json.index]
      split
      · exact foreign_ok _
      · exact foreign_raise rfl
  | _ => exact foreign_raise rfl

theorem foreign_dictGet (v : Json) (key : Text) : Foreign (v.dictGet key) := by
  cases v with
  | obj pairs => exact foreign_ok _
  | _ => exact foreign_raise rfl

theorem foreign_iterate (v : Json) : Foreign v.iterate := by
  cases v with
  | arr items => exact foreign_ok _
  | obj pairs => exact foreign_ok _
  | str s => exact foreign_ok _
  | _ => exact foreign_raise rfl

theorem foreign_toInt (v : Json) : Foreign v.toInt := by
  cases v with
  | bool b => exact foreign_ok _
  | int n => exact foreign_ok _
  | str s => exact foreign_kind (intOfText_ends s) rfl
  | float x =>
      cases x with
      | finite q => exact foreign_ok _
      | inf negative => exact foreign_raise rfl
      | nan => exact foreign_raise rfl
  | _ => exact foreign_raise rfl

theorem foreign_toFloat (v : Json) : Foreign v.toFloat := by
  cases v with
  | bool b => exact foreign_ok _
  | int n =>
      rw [Json.toFloat, floatOfInt]
      split
      · exact foreign_raise rfl
      · exact foreign_ok _
  | float x => exact foreign_ok _
  | str s => exact foreign_kind (floatOfText_ends s) rfl
  | _ => exact foreign_raise rfl

theorem foreign_toStr (pr : Json.Printing) (v : Json) : Foreign (v.toStr pr) :=
  ends_if trivial rfl

theorem foreign_toRepr (pr : Json.Printing) (v : Json) : Foreign (v.toRepr pr) :=
  ends_if trivial rfl

/-! ### The members of a record -/

/-- What a member is converted with. -/
inductive Conversion
  | asIs
  | toInt
  | toFloat

def Conversion.check : Conversion → Json → Except Exn Unit
  | .asIs, _ => .ok ()
  | .toInt, v => (fun _ => ()) <$> v.toInt
  | .toFloat, v => (fun _ => ()) <$> v.toFloat

/-- The conversion raises an `OverflowError`. -/
def Conversion.Overflows : Conversion → Json → Prop
  | .asIs, _ => False
  | .toInt, v => v.Infinite
  | .toFloat, v => v.BeyondFloats

structure Member where
  key : Text
  conversion : Conversion

namespace Member

def check (raw : Json) (m : Member) : Except Exn Unit :=
  raw.index m.key >>= fun v => m.conversion.check v

/-- The member is there and can be converted. -/
def Reads (pairs : List (Text × Json)) (m : Member) : Prop :=
  ∃ v, Json.get? pairs m.key = some v ∧ m.conversion.check v = .ok ()

def Overflows (pairs : List (Text × Json)) (m : Member) : Prop :=
  ∃ v, Json.get? pairs m.key = some v ∧ m.conversion.Overflows v

theorem check_obj (pairs : List (Text × Json)) (m : Member) :
    m.check (.obj pairs) =
      match Json.get? pairs m.key with
      | some v => m.conversion.check v
      | none => raise .keyError := by
  rw [check, Json.index]
  cases Json.get? pairs m.key with
  | some v => rfl
  | none => rfl

theorem reads_iff (pairs : List (Text × Json)) (m : Member) :
    m.check (.obj pairs) = .ok () ↔ m.Reads pairs := by
  rw [check_obj, Reads]
  cases Json.get? pairs m.key with
  | some v => exact ⟨fun h => ⟨v, rfl, h⟩, fun ⟨w, hw, h⟩ => Option.some.inj hw ▸ h⟩
  | none =>
      refine iff_of_false (fun h => by cases h) ?_
      rintro ⟨v, hv, -⟩
      cases hv

theorem foreign_check (raw : Json) (m : Member) : Foreign (m.check raw) := by
  refine (foreign_index raw m.key).bind fun v => ?_
  cases m.conversion with
  | asIs => exact foreign_ok ()
  | toInt => exact (foreign_toInt v).map _
  | toFloat => exact (foreign_toFloat v).map _

/-- `except (KeyError, ValueError, TypeError)`. -/
def malformed : List ExnKind := [.keyError, .valueError, .typeError]

theorem escapes_conversion_iff (c : Conversion) (v : Json) :
    Escapes malformed (c.check v) ↔ c.Overflows v := by
  cases c with
  | asIs => exact iff_of_false (not_escapes_ok _ _) id
  | toInt =>
      rw [Conversion.check, escapes_map_iff]
      exact Json.escapes_toInt_iff (by simp [malformed]) (by simp [malformed]) rfl v
  | toFloat =>
      rw [Conversion.check, escapes_map_iff]
      exact Json.escapes_toFloat_iff (by simp [malformed]) (by simp [malformed]) rfl v

/-- A record that is read member by member is read where every member is. -/
theorem exists_ok_iff {α : Type} {x : Except Exn α} {raw : Json} {members : List Member}
    (h : (fun _ => ()) <$> x = members.forM (check raw)) :
    (∃ a, x = .ok a) ↔ ∀ m ∈ members, m.check raw = .ok () := by
  rw [← forM_eq_ok_iff, ← h, map_eq_ok_iff]
  exact ⟨fun ⟨a, ha⟩ => ⟨a, ha, rfl⟩, fun ⟨a, ha, _⟩ => ⟨a, ha⟩⟩

theorem escapes_check_iff (pairs : List (Text × Json)) (m : Member) :
    Escapes malformed (m.check (.obj pairs)) ↔ m.Overflows pairs := by
  rw [check_obj, Overflows]
  cases Json.get? pairs m.key with
  | some v =>
      simp only [escapes_conversion_iff]
      exact ⟨fun h => ⟨v, rfl, h⟩, fun ⟨w, hw, h⟩ => Option.some.inj hw ▸ h⟩
  | none =>
      refine iff_of_false (not_escapes_raise rfl) ?_
      rintro ⟨v, hv, -⟩
      cases hv

end Member

/-- The members of a holding, as they are read one after the other. -/
def holdingMembers : List Member :=
  [⟨text "pdno", .asIs⟩, ⟨text "prdt_name", .asIs⟩, ⟨text "hldg_qty", .toInt⟩,
    ⟨text "pchs_avg_pric", .toFloat⟩, ⟨text "prpr", .toInt⟩, ⟨text "evlu_amt", .toInt⟩,
    ⟨text "evlu_pfls_amt", .toInt⟩, ⟨text "evlu_pfls_rt", .toFloat⟩]

def summaryMembers : List Member :=
  [⟨text "dnca_tot_amt", .toInt⟩, ⟨text "tot_evlu_amt", .toInt⟩,
    ⟨text "evlu_pfls_amt_smtl", .toInt⟩, ⟨text "tot_evlu_pfls_rt", .toFloat⟩]

namespace KisBalanceClient

theorem readHolding_members (raw : Json) :
    (fun _ => ()) <$> readHolding raw = holdingMembers.forM (Member.check raw) := by
  simp only [readHolding, holdingMembers, forM_cons, Member.check, Conversion.check,
    map_eq_pure_bind, bind_assoc, pure_bind]
  rfl

theorem parseSummary_members (raw : Json) (holdings : List HoldingItem) :
    (fun _ => ()) <$> parseSummary raw holdings = summaryMembers.forM (Member.check raw) := by
  simp only [parseSummary, summaryMembers, forM_cons, Member.check, Conversion.check,
    map_eq_pure_bind, bind_assoc, pure_bind]
  rfl

theorem parseSummary_eq (raw : Json) (holdings : List HoldingItem) :
    parseSummary raw holdings =
      (fun s => { s with holdings := holdings }) <$> parseSummary raw [] := by
  simp only [parseSummary, map_eq_pure_bind, bind_assoc, pure_bind]

/-! ### The holdings -/

/-- The first member that does not read overflows. -/
def Trips (pairs : List (Text × Json)) : Prop :=
  ∃ before m after, holdingMembers = before ++ m :: after ∧
    (∀ k ∈ before, k.Reads pairs) ∧ m.Overflows pairs

/-- A row that is read or skipped. -/
def RowParses (row : Json) : Prop := ∃ pairs, row = .obj pairs ∧ ¬ Trips pairs

def holdingStep (raw : Json) : Except Exn (Option HoldingItem) :=
  tryExcept (some <$> readHolding raw) Member.malformed fun _ =>
    (fun _ => none) <$> raw.dictGet (text "pdno")

theorem parseHoldings_eq (rows : List Json) :
    parseHoldings rows = List.reduceOption <$> rows.mapM holdingStep := rfl

theorem foreign_readHolding (raw : Json) : Foreign (readHolding raw) := by
  apply Foreign.of_map
  rw [readHolding_members]
  exact Foreign.forM (Member.foreign_check raw) holdingMembers

theorem foreign_parseSummary (raw : Json) (holdings : List HoldingItem) :
    Foreign (parseSummary raw holdings) := by
  apply Foreign.of_map
  rw [parseSummary_members]
  exact Foreign.forM (Member.foreign_check raw) summaryMembers

theorem foreign_holdingStep (raw : Json) : Foreign (holdingStep raw) :=
  ends_tryExcept ((foreign_readHolding raw).map some)
    (fun _ _ _ => (foreign_dictGet raw _).map _) fun _ he _ => he

theorem foreign_parseHoldings (rows : List Json) : Foreign (parseHoldings rows) :=
  (Foreign.mapM foreign_holdingStep rows).map _

theorem escapes_readHolding_iff (pairs : List (Text × Json)) :
    Escapes Member.malformed (readHolding (.obj pairs)) ↔ Trips pairs := by
  rw [← escapes_map_iff _ _ fun _ => (), readHolding_members, escapes_forM_iff]
  simp only [Member.reads_iff, Member.escapes_check_iff]
  rfl

theorem holdingStep_ok_iff (raw : Json) : (∃ o, holdingStep raw = .ok o) ↔ RowParses raw := by
  cases raw with
  | obj pairs =>
      have hok := tryExcept_isOk_iff (some <$> readHolding (.obj pairs)) Member.malformed
        (fun _ => (fun _ => none) <$> (Json.obj pairs).dictGet (text "pdno")) fun _ => rfl
      rw [escapes_map_iff, escapes_readHolding_iff] at hok
      rw [RowParses, Json.obj_and_iff, ← hok]
      change _ ↔ (holdingStep (.obj pairs)).isOk = true
      cases holdingStep (.obj pairs) with
      | ok o => exact iff_of_true ⟨o, rfl⟩ rfl
      | error e =>
          refine iff_of_false ?_ Bool.false_ne_true
          rintro ⟨o, h⟩
          cases h
  | _ =>
      refine iff_of_false ?_ ?_
      · rintro ⟨o, h⟩
        cases h
      · rintro ⟨pairs, h, -⟩
        cases h

theorem holdingStep_value {raw : Json} {o : Option HoldingItem} (h : holdingStep raw = .ok o) :
    o = (readHolding raw).toOption := by
  rw [holdingStep] at h
  cases hread : readHolding raw with
  | ok item =>
      rw [hread] at h
      exact (Except.ok.inj h).symm
  | error e =>
      rw [hread] at h
      cases he : e.isInstance Member.malformed with
      | true =>
          have hcaught := (tryExcept_caught (fun _ =>
            (fun _ => (none : Option HoldingItem)) <$> raw.dictGet (text "pdno")) he).symm.trans h
          obtain ⟨_, -, rfl⟩ := map_eq_ok_iff.mp hcaught
          rfl
      | false =>
          cases (tryExcept_uncaught (fun _ =>
            (fun _ => (none : Option HoldingItem)) <$> raw.dictGet (text "pdno")) he).symm.trans h

/-- The rows that read, in their order. -/
def holdingsOf (rows : List Json) : List HoldingItem :=
  rows.filterMap fun row => (readHolding row).toOption

/-- The holdings are the rows that read, unless a row gets past the handler. -/
theorem parseHoldings_ok_iff {rows : List Json} {holdings : List HoldingItem} :
    parseHoldings rows = .ok holdings ↔
      (∀ row ∈ rows, RowParses row) ∧ holdings = holdingsOf rows := by
  have hvalue {items : List (Option HoldingItem)} (h : rows.mapM holdingStep = .ok items) :
      items = rows.map fun row => (readHolding row).toOption := by
    have hall := mapM_eq_ok_iff.mp h
    clear h
    induction hall with
    | nil => rfl
    | cons hrow _ ih => rw [holdingStep_value hrow, ih, List.map_cons]
  have hreduce : (rows.map fun row => (readHolding row).toOption).reduceOption =
      holdingsOf rows := List.filterMap_map
  rw [parseHoldings_eq, map_eq_ok_iff]
  constructor
  · rintro ⟨items, hitems, rfl⟩
    refine ⟨?_, ?_⟩
    · intro row hrow
      obtain ⟨o, -, ho⟩ := of_mapM hitems hrow
      exact (holdingStep_ok_iff row).mp ⟨o, ho⟩
    · rw [hvalue hitems, hreduce]
  · rintro ⟨hrows, rfl⟩
    obtain ⟨items, hitems⟩ := mapM_ok fun row hrow => (holdingStep_ok_iff row).mpr (hrows row hrow)
    exact ⟨items, hitems, by rw [hvalue hitems, hreduce]⟩

/-! ### The summary -/

def SummaryReads (raw : Json) : Prop :=
  ∃ pairs, raw = .obj pairs ∧ ∀ m ∈ summaryMembers, m.Reads pairs

theorem parseSummary_ok_iff (raw : Json) (holdings : List HoldingItem) :
    (∃ r, parseSummary raw holdings = .ok r) ↔ SummaryReads raw := by
  rw [Member.exists_ok_iff (parseSummary_members raw holdings)]
  cases raw with
  | obj pairs =>
      rw [SummaryReads, Json.obj_and_iff]
      simp only [Member.reads_iff]
  | _ =>
      refine iff_of_false (fun h => ?_) ?_
      · cases h _ List.mem_cons_self
      · rintro ⟨pairs, heq, -⟩
        cases heq

/-! ### The payload of a balance -/

/-- `payload.get(key) or []`. -/
def listOf (pairs : List (Text × Json)) (key : Text) : Json :=
  Json.orElse (Json.get? pairs key) (.arr [])

/-- `_parse_response` from the decoded payload on. -/
def ofPayload (payload : Json) : Except Exn BalanceResult := do
  let output1 := Json.orElse (← payload.dictGet (text "output1")) (.arr [])
  let output2 := Json.orElse (← payload.dictGet (text "output2")) (.arr [])
  if !output2.truthy then
    raise kisUpstreamError (text "Missing output2 in KIS balance response")
  else
    let holdings ← parseHoldings (← output1.iterate)
    parseSummary (← firstItem output2) holdings

theorem parseResponse_eq {resp : HttpResponse} (h : resp.statusCode < 400) :
    parseResponse resp =
      tryExcept resp.json [.valueError] (fun _ => raise kisUpstreamError
        (text "KIS balance returned non-JSON response" ++ httpSuffix resp.statusCode)) >>=
      ofPayload := by
  rw [parseResponse, if_neg (by omega), if_neg (by omega)]
  rfl

theorem ofPayload_obj (pairs : List (Text × Json)) :
    ofPayload (.obj pairs) =
      if !(listOf pairs (text "output2")).truthy then
        raise kisUpstreamError (text "Missing output2 in KIS balance response")
      else (do
        let holdings ← parseHoldings (← (listOf pairs (text "output1")).iterate)
        parseSummary (← firstItem (listOf pairs (text "output2"))) holdings) := rfl

theorem listOf_cases (pairs : List (Text × Json)) (key : Text) :
    listOf pairs key = .arr [] ∨ (listOf pairs key).truthy = true := by
  rw [listOf, Json.orElse]
  cases h : (Json.get? pairs key).filter Json.truthy with
  | none => exact .inl rfl
  | some v => exact .inr (Option.filter_eq_some_iff.mp h).2

theorem not_rowParses_str (s : Text) : ¬ RowParses (.str s) := by
  rintro ⟨pairs, h, -⟩
  cases h

/-- What can be iterated over, and yields objects only, is a list. -/
theorem listOf_of_iterate {pairs : List (Text × Json)} {key : Text} {rows : List Json}
    (hiterate : (listOf pairs key).iterate = .ok rows) (hrows : ∀ row ∈ rows, RowParses row) :
    listOf pairs key = .arr rows := by
  obtain hempty | htruthy := listOf_cases pairs key
  · rw [hempty] at hiterate ⊢
    rw [← Except.ok.inj hiterate]
  · cases hlist : listOf pairs key with
    | arr items =>
        rw [hlist] at hiterate
        rw [← Except.ok.inj hiterate]
    | obj members =>
        rw [hlist] at hiterate htruthy
        obtain rfl := Except.ok.inj hiterate
        cases members with
        | nil => cases htruthy
        | cons p members => exact absurd (hrows _ List.mem_cons_self) (not_rowParses_str _)
    | str s =>
        rw [hlist] at hiterate htruthy
        obtain rfl := Except.ok.inj hiterate
        cases s with
        | nil => cases htruthy
        | cons c s => exact absurd (hrows _ List.mem_cons_self) (not_rowParses_str _)
    | _ =>
        rw [hlist] at hiterate
        cases hiterate

theorem arr_of_firstItem {v first : Json} (hfirst : firstItem v = .ok first)
    (hreads : SummaryReads first) : ∃ rest, v = .arr (first :: rest) := by
  cases v with
  | arr items =>
      cases items with
      | nil => cases hfirst
      | cons item rest => exact ⟨rest, by rw [Except.ok.inj hfirst]⟩
  | str s =>
      cases s with
      | nil => cases hfirst
      | cons c s =>
          obtain rfl := Except.ok.inj hfirst
          obtain ⟨pairs, heq, -⟩ := hreads
          cases heq
  | _ => cases hfirst

/-- The payloads that give a balance, and which one. -/
theorem ofPayload_ok_iff {payload : Json} {r : BalanceResult} :
    ofPayload payload = .ok r ↔
      ∃ pairs rows first rest s, payload = .obj pairs ∧
        listOf pairs (text "output1") = .arr rows ∧ (∀ row ∈ rows, RowParses row) ∧
        listOf pairs (text "output2") = .arr (first :: rest) ∧ parseSummary first [] = .ok s ∧
        r = { s with holdings := holdingsOf rows } := by
  constructor
  · intro h
    cases payload with
    | obj pairs =>
        rw [ofPayload_obj] at h
        split at h
        · cases h
        · obtain ⟨rows, hrows, h⟩ := bind_eq_ok_iff.mp h
          obtain ⟨holdings, hholdings, h⟩ := bind_eq_ok_iff.mp h
          obtain ⟨first, hfirst, h⟩ := bind_eq_ok_iff.mp h
          obtain ⟨hparse, rfl⟩ := parseHoldings_ok_iff.mp hholdings
          obtain ⟨rest, hrest⟩ :=
            arr_of_firstItem hfirst ((parseSummary_ok_iff first _).mp ⟨r, h⟩)
          rw [parseSummary_eq] at h
          obtain ⟨s, hs, rfl⟩ := map_eq_ok_iff.mp h
          exact ⟨pairs, rows, first, rest, s, rfl, listOf_of_iterate hrows hparse, hparse, hrest,
            hs, rfl⟩
    | _ => cases h
  · rintro ⟨pairs, rows, first, rest, s, rfl, hrows, hparse, hfirst, hs, rfl⟩
    have hholdings := parseHoldings_ok_iff.mpr ⟨hparse, rfl⟩
    have hlist : ofPayload (.obj pairs) =
        parseHoldings rows >>= fun holdings => parseSummary first holdings := by
      rw [ofPayload_obj, hrows, hfirst]
      rfl
    rw [hlist, hholdings, ok_bind, parseSummary_eq, hs]
    rfl

/-- The payload is an object that lacks the second list, or has both of them as they should be:
rows that are read or skipped, and a summary in front. -/
def PayloadParses (payload : Json) : Prop :=
  ∃ pairs, payload = .obj pairs ∧
    ((listOf pairs (text "output2")).truthy = true →
      ∃ rows first rest, listOf pairs (text "output1") = .arr rows ∧
        (∀ row ∈ rows, RowParses row) ∧
        listOf pairs (text "output2") = .arr (first :: rest) ∧ SummaryReads first)

theorem foreign_firstItem (v : Json) : Foreign (firstItem v) := by
  cases v with
  | arr items =>
      cases items with
      | nil => exact foreign_raise rfl
      | cons item rest => exact foreign_ok _
  | str s =>
      cases s with
      | nil => exact foreign_raise rfl
      | cons c s => exact foreign_ok _
  | _ => exact foreign_raise rfl

theorem ofPayload_settles_iff (payload : Json) :
    ¬ Escapes clientErrors (ofPayload payload) ↔ PayloadParses payload := by
  cases payload with
  | obj pairs =>
      cases htruthy : (listOf pairs (text "output2")).truthy with
      | false =>
          refine iff_of_true ?_ ⟨pairs, rfl, fun h => ?_⟩
          · rw [ofPayload_obj, htruthy]
            exact not_escapes_declared kisUpstreamError_mem _
          · rw [htruthy] at h
            cases h
      | true =>
          have hforeign : Foreign (ofPayload (.obj pairs)) := by
            rw [ofPayload_obj, htruthy]
            exact (foreign_iterate _).bind fun rows => (foreign_parseHoldings rows).bind fun _ =>
              (foreign_firstItem _).bind fun first => foreign_parseSummary first _
          rw [hforeign.not_escapes_iff]
          constructor
          · rintro ⟨r, hr⟩
            obtain ⟨pairs', rows, first, rest, s, heq, hrows, hparse, hfirst, hs, -⟩ :=
              ofPayload_ok_iff.mp hr
            obtain rfl := Json.obj.inj heq
            exact ⟨pairs, rfl, fun _ => ⟨rows, first, rest, hrows, hparse, hfirst,
              (parseSummary_ok_iff first []).mp ⟨s, hs⟩⟩⟩
          · rintro ⟨pairs', heq, h⟩
            obtain rfl := Json.obj.inj heq
            obtain ⟨rows, first, rest, hrows, hparse, hfirst, hsummary⟩ := h htruthy
            obtain ⟨s, hs⟩ := (parseSummary_ok_iff first []).mpr hsummary
            exact ⟨_, ofPayload_ok_iff.mpr
              ⟨pairs, rows, first, rest, s, rfl, hrows, hparse, hfirst, hs, rfl⟩⟩
  | _ =>
      refine iff_of_false (not_not.mpr ⟨⟨.attributeError, []⟩, rfl, rfl⟩) ?_
      rintro ⟨pairs, heq, -⟩
      cases heq

end KisBalanceClient

/-! ### From the response to the payload -/

/-- The body is no JSON, or JSON of which `P` holds. -/
def Decodes (P : Json → Prop) (json : Except Exn Json) : Prop :=
  Ends P (fun e => e.isInstance (.valueError :: clientErrors) = true) json

theorem decodes_iff {α : Type} {P : Json → Prop} {f : Json → Except Exn α}
    (hf : ∀ v, ¬ Escapes clientErrors (f v) ↔ P v) (json : Except Exn Json) (message : Text) :
    ¬ Escapes clientErrors
        (tryExcept json [.valueError] (fun _ => raise kisUpstreamError message) >>= f) ↔
      Decodes P json := by
  cases json with
  | ok v =>
      rw [tryExcept_ok, ok_bind, hf]
      exact ⟨fun h => ends_ok h, fun h => h.1 v rfl⟩
  | error e =>
      have hsplit : e.isInstance (.valueError :: clientErrors) =
          (e.isInstance [.valueError] || e.isInstance clientErrors) := by
        simp only [Exn.isInstance, List.any_cons, List.any_nil, Bool.or_false]
      have hdecodes : Decodes P (.error e) ↔ e.isInstance (.valueError :: clientErrors) = true :=
        ⟨fun h => h.2 e rfl, fun h => ends_error h⟩
      rw [hdecodes, hsplit]
      cases he : e.isInstance [.valueError] with
      | true =>
          rw [tryExcept_caught _ he]
          refine iff_of_true ?_ rfl
          exact not_escapes_declared kisUpstreamError_mem message
      | false =>
          rw [tryExcept_uncaught _ he]
          change ¬ Escapes clientErrors (.error e) ↔ _
          rw [escapes_error_iff, Bool.not_eq_false, Bool.false_or]

/-- The bodies of a balance that end in a result or in a declared error. -/
theorem KisBalanceClient.parseResponse_settles_iff (resp : HttpResponse) :
    ¬ Escapes clientErrors (parseResponse resp) ↔
      400 ≤ resp.statusCode ∨ Decodes PayloadParses resp.json := by
  by_cases hstatus : resp.statusCode < 400
  · rw [parseResponse_eq hstatus, decodes_iff ofPayload_settles_iff]
    exact ⟨.inr, fun h => h.resolve_left (Nat.not_le.mpr hstatus)⟩
  · refine iff_of_true ?_ (.inl (Nat.not_lt.mp hstatus))
    rw [parseResponse]
    split
    · exact not_escapes_declared kisAuthError_mem _
    · rw [if_pos (Nat.not_lt.mp hstatus)]
      exact not_escapes_declared kisUpstreamError_mem _

namespace KisOrderClient

/-- `_parse_response` from the decoded payload on. -/
def ofPayload (pr : Json.Printing) (status : Nat) (payload : Json) : Except Exn OrderResult := do
  let rtCd ← getWithDefault payload (text "rt_cd") (.str (text "?"))
  let msgCd ← getWithDefault payload (text "msg_cd") (.str (text "?"))
  let msg ← getWithDefault payload (text "msg1") (.str [])
  let output := Json.orElse (← payload.dictGet (text "output")) (.obj [])
  return {
    success := decide (status < 400) && isZero rtCd
    orderId := orderNumber output
    message := text "rt_cd=" ++ (← rtCd.toStr pr) ++ text " msg_cd=" ++ (← msgCd.toStr pr) ++
      text " msg=" ++ (← msg.toRepr pr) }

theorem parseResponse_eq (pr : Json.Printing) {resp : HttpResponse}
    (h : ¬ (resp.statusCode = 401 ∨ resp.statusCode = 403)) :
    parseResponse pr resp =
      tryExcept resp.json [.valueError] (fun _ => raise kisUpstreamError
        (text "KIS order returned non-JSON response" ++ httpSuffix resp.statusCode)) >>=
      ofPayload pr resp.statusCode := by
  rw [parseResponse, if_neg h]
  rfl

/-- The members that go into the message. -/
def printedKeys : List Text := [text "rt_cd", text "msg_cd", text "msg1"]

/-- The payload is an object, and what is printed of it is not nested too deep to print. -/
def PayloadPrints (pr : Json.Printing) (payload : Json) : Prop :=
  ∃ pairs, payload = .obj pairs ∧
    ∀ key ∈ printedKeys, ∀ v, Json.get? pairs key = some v → v.depth ≤ pr.strLimit

/-- A member of the payload, or what stands for it. -/
def memberOr (pairs : List (Text × Json)) (key default : Text) : Json :=
  (Json.get? pairs key).getD (.str default)

/-- The result of a payload that is an object. -/
def printed (pr : Json.Printing) (status : Nat) (pairs : List (Text × Json)) :
    Except Exn OrderResult := do
  let rtCd := memberOr pairs (text "rt_cd") (text "?")
  return {
    success := decide (status < 400) && isZero rtCd
    orderId := orderNumber (Json.orElse (Json.get? pairs (text "output")) (.obj []))
    message := text "rt_cd=" ++ (← rtCd.toStr pr) ++ text " msg_cd=" ++
      (← (memberOr pairs (text "msg_cd") (text "?")).toStr pr) ++ text " msg=" ++
      (← (memberOr pairs (text "msg1") []).toRepr pr) }

theorem ofPayload_obj (pr : Json.Printing) (status : Nat) (pairs : List (Text × Json)) :
    ofPayload pr status (.obj pairs) = printed pr status pairs := rfl

theorem depth_memberOr_iff (pairs : List (Text × Json)) (key default : Text) (limit : Nat) :
    (memberOr pairs key default).depth ≤ limit ↔
      ∀ v, Json.get? pairs key = some v → v.depth ≤ limit := by
  rw [memberOr]
  cases Json.get? pairs key with
  | none =>
      refine iff_of_true (Nat.zero_le _) ?_
      intro v hv
      cases hv
  | some v => exact ⟨fun h w hw => Option.some.inj hw ▸ h, fun h => h v rfl⟩

theorem printed_ok_iff (pr : Json.Printing) (status : Nat) (pairs : List (Text × Json)) :
    (∃ r, printed pr status pairs = .ok r) ↔
      ∀ key ∈ printedKeys, ∀ v, Json.get? pairs key = some v → v.depth ≤ pr.strLimit := by
  have hkeys : (∀ key ∈ printedKeys, ∀ v, Json.get? pairs key = some v → v.depth ≤ pr.strLimit) ↔
      (memberOr pairs (text "rt_cd") (text "?")).depth ≤ pr.strLimit ∧
        (memberOr pairs (text "msg_cd") (text "?")).depth ≤ pr.strLimit ∧
        (memberOr pairs (text "msg1") []).depth ≤ pr.strLimit := by
    simp only [printedKeys, List.forall_mem_cons, depth_memberOr_iff, List.not_mem_nil,
      false_implies, implies_true, and_true]
  rw [hkeys, ← Json.toStr_ok_iff, ← Json.toStr_ok_iff, ← Json.toRepr_ok_iff]
  simp only [printed, bind_eq_ok_iff]
  constructor
  · rintro ⟨r, a, ha, b, hb, c, hc, -⟩
    exact ⟨⟨a, ha⟩, ⟨b, hb⟩, ⟨c, hc⟩⟩
  · rintro ⟨⟨a, ha⟩, ⟨b, hb⟩, ⟨c, hc⟩⟩
    exact ⟨_, a, ha, b, hb, c, hc, rfl⟩

theorem ofPayload_settles_iff (pr : Json.Printing) (status : Nat) (payload : Json) :
    ¬ Escapes clientErrors (ofPayload pr status payload) ↔ PayloadPrints pr payload := by
  cases payload with
  | obj pairs =>
      have hforeign : Foreign (printed pr status pairs) :=
        (foreign_toStr pr _).bind fun _ => (foreign_toStr pr _).bind fun _ =>
          (foreign_toRepr pr _).bind fun _ => foreign_ok _
      rw [ofPayload_obj, hforeign.not_escapes_iff, PayloadPrints, Json.obj_and_iff,
        printed_ok_iff]
  | _ =>
      refine iff_of_false (not_not.mpr ⟨⟨.attributeError, []⟩, rfl, rfl⟩) ?_
      rintro ⟨pairs, heq, -⟩
      cases heq

theorem parseResponse_settles_iff (pr : Json.Printing) (resp : HttpResponse) :
    ¬ Escapes clientErrors (parseResponse pr resp) ↔
      (resp.statusCode = 401 ∨ resp.statusCode = 403) ∨
        Decodes (PayloadPrints pr) resp.json := by
  by_cases hauth : resp.statusCode = 401 ∨ resp.statusCode = 403
  · refine iff_of_true ?_ (.inl hauth)
    rw [parseResponse, if_pos hauth]
    exact not_escapes_declared kisAuthError_mem _
  · rw [parseResponse_eq pr hauth, decodes_iff (ofPayload_settles_iff pr _)]
    exact ⟨.inr, fun h => h.resolve_left hauth⟩

end KisOrderClient

end NexusBackend
