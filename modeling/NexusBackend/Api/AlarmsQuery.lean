import NexusBackend.Alarms.Models
import NexusBackend.Api.Router

/-!
The query of `GET /alarms`: its four texts are parsed, and the filters are made of what they give.

Of the parsers only `_InvalidInput` is answered, with 400; the filters are constructed outside of
the guarded block. The limit is what the validation of the framework lets through. Which
characters `repr` shows unescaped is a table of the interpreter.
-/
namespace NexusBackend

open Python

/-- `_InvalidInput`, whose text is the detail of the answer. -/
def invalidInput : ExnKind := .named (text "_InvalidInput")

def Severity.value : Severity → Text
  | info => text "info"
  | warn => text "warn"
  | anomaly => text "anomaly"
  | critical => text "critical"

def Severity.members : List Severity := [.info, .warn, .anomaly, .critical]

def Status.value : Status → Text
  | active => text "active"
  | acknowledged => text "acknowledged"
  | resolved => text "resolved"

def Status.members : List Status := [.active, .acknowledged, .resolved]

structure AlarmsQuery where
  severity : Option Text := none
  status : Option Text := none
  source : Option Text := none
  since : Option Text := none
  limit : Int := limitDefault
  limit_range : limitMin ≤ limit ∧ limit ≤ limitMax

/-- `_parse_csv`. -/
def parseCsv (raw : Option Text) (maxItems : Nat) : Option (List Text) :=
  match raw with
  | none => none
  | some raw =>
      let parts := ((splitAll 44 raw).map strip).filter (· ≠ [])
      if parts = [] then none
      else if maxItems < parts.length then some (parts.take maxItems)
      else some parts

section
variable {α : Type} [DecidableEq α]

/-- One token of a list of enum values. -/
def addMember (printable : Nat → Bool) (what : Text) (members : List α) (value : α → Text)
    (out : Finset α) (token : Text) : Except Exn (Finset α) :=
  match members.find? fun m => value m = token with
  | some m => .ok (insert m out)
  | none =>
      raise invalidInput (what ++ text " " ++ reprText printable token ++
        text " is not one of " ++ join 124 (members.map value))

/-- The loop of `_parse_severities` and `_parse_statuses`. -/
def parseMembers (printable : Nat → Bool) (what : Text) (members : List α) (value : α → Text)
    (tokens : List Text) : Except Exn (Finset α) :=
  tokens.foldlM (addMember printable what members value) ∅

end

/-- `_parse_severities`. -/
def parseSeverities (printable : Nat → Bool) (raw : Option Text) :
    Except Exn (Option (Finset Severity)) :=
  match parseCsv raw 50 with
  | none => .ok none
  | some tokens => do
      let out ← parseMembers printable (text "severity") Severity.members Severity.value tokens
      return if out = ∅ then none else some out

/-- `_parse_statuses`. -/
def parseStatuses (printable : Nat → Bool) (raw : Option Text) : Except Exn (Finset Status) :=
  match parseCsv raw 50 with
  | none => .ok {.active}
  | some tokens => do
      let out ← parseMembers printable (text "status") Status.members Status.value tokens
      return if out = ∅ then {.active} else out

/-- The text that `_parse_since` hands to `fromisoformat`. -/
def isoTextOf (raw : Text) : Text :=
  let cleaned := strip raw
  if endsWith cleaned (text "Z") then cleaned.dropLast ++ text "+00:00" else cleaned

/-- `_parse_since`; a time without an offset is taken for UTC. -/
def parseSince (printable : Nat → Bool) (raw : Option Text) : Except Exn (Option UtcTime) :=
  match raw with
  | none => .ok none
  | some raw =>
      if strip raw = [] then .ok none
      else do
        let parsed ← tryExcept (fromisoformat (isoTextOf raw)) [.valueError] fun _ =>
          raise invalidInput (text "since " ++ reprText printable raw ++
            text " is not a valid RFC 3339 / ISO-8601 timestamp")
        some <$> toUtc parsed.date parsed.time (parsed.offset.getD .utc)

/-- What the guarded block of `alarms_list` leaves. -/
structure AlarmsInputs where
  severities : Option (Finset Severity)
  statuses : Finset Status
  sources : Option (List Text)
  since : Option UtcTime

def parseInputs (printable : Nat → Bool) (q : AlarmsQuery) : Except Exn AlarmsInputs := do
  let severities ← parseSeverities printable q.severity
  let statuses ← parseStatuses printable q.status
  let sources := parseCsv q.source 20
  let since ← parseSince printable q.since
  return { severities, statuses, sources, since }

/-- `server_time - timedelta(hours=24)`. -/
def defaultWindow (serverTime : UtcTime) : Except Exn UtcTime := do
  let date ← Date.ofOrdinal (serverTime.date.ordinal - 1)
  return ⟨date, serverTime.time⟩

def AlarmsInputs.filters (inputs : AlarmsInputs) (serverTime : UtcTime) (limit : Int) :
    Except Exn AlarmListFilters := do
  let windowSince ←
    match inputs.since with
    | some since => .ok since
    | none => defaultWindow serverTime
  AlarmListFilters.make {
    statuses := inputs.statuses
    severities := inputs.severities
    sources := inputs.sources
    since := some windowSince.toDateTime
    limit := limit }

def problemTypeInvalidInput : Text := text "https://nexus-os.local/problems/invalid-input"

/-- `_invalid_input_response`. -/
def invalidInputResponse (e : Exn) : ProblemDetail where
  type := problemTypeInvalidInput
  title := text "Invalid query parameter"
  status := 400
  detail := e.message

/-- The guarded block of `alarms_list`. -/
def guardedInputs (printable : Nat → Bool) (q : AlarmsQuery) :
    Except Exn (ProblemDetail ⊕ AlarmsInputs) :=
  tryExcept (Sum.inr <$> parseInputs printable q) [invalidInput] fun e =>
    .ok (Sum.inl (invalidInputResponse e))

/-- `alarms_list` up to the call of the repository: the problem that it answers with, or the
filters. -/
def alarmsFilters (printable : Nat → Bool) (serverTime : UtcTime) (q : AlarmsQuery) :
    Except Exn (ProblemDetail ⊕ AlarmListFilters) := do
  match ← guardedInputs printable q with
  | .inl problem => return Sum.inl problem
  | .inr inputs => Sum.inr <$> inputs.filters serverTime q.limit

/-! ### What the parsers take -/

theorem parseCsv_some {raw : Option Text} {maxItems : Nat} {tokens : List Text}
    (hmax : 0 < maxItems) (h : parseCsv raw maxItems = some tokens) :
    tokens ≠ [] ∧ ∀ token ∈ tokens, token ≠ [] := by
  cases raw with
  | none => cases h
  | some raw =>
      have hparts : ∀ token ∈ ((splitAll 44 raw).map strip).filter (· ≠ []), token ≠ [] := by
        intro token htoken
        simpa using (List.mem_filter.mp htoken).2
      rw [parseCsv] at h
      split at h
      · cases h
      · rename_i hne
        split at h
        · cases h
          refine ⟨?_, fun token htoken => hparts token (List.mem_of_mem_take htoken)⟩
          rw [Ne, List.take_eq_nil_iff, not_or]
          exact ⟨hmax.ne', hne⟩
        · cases h
          exact ⟨hne, hparts⟩

/-- An item of the text that is no value of the enum. -/
def UnknownToken {α : Type} (members : List α) (value : α → Text) (raw : Option Text) : Prop :=
  ∃ tokens, parseCsv raw 50 = some tokens ∧ ∃ token ∈ tokens, ∀ m ∈ members, value m ≠ token

section
variable {α : Type} [DecidableEq α] (printable : Nat → Bool) (what : Text) (members : List α)
  (value : α → Text)

theorem addMember_cases (out : Finset α) (token : Text) :
    ((∃ m ∈ members, value m = token) ∧
        ∃ out', addMember printable what members value out token = .ok out') ∨
      ((∀ m ∈ members, value m ≠ token) ∧
        ∃ detail, addMember printable what members value out token =
          raise invalidInput detail) := by
  rw [addMember]
  cases h : members.find? fun m => value m = token with
  | some m =>
      have hvalue : value m = token := by simpa using List.find?_some h
      exact .inl ⟨⟨m, List.mem_of_find?_eq_some h, hvalue⟩, _, rfl⟩
  | none =>
      refine .inr ⟨?_, _, rfl⟩
      simpa using List.find?_eq_none.mp h

theorem foldlM_addMember_cases (tokens : List Text) (out : Finset α) :
    ((∀ token ∈ tokens, ∃ m ∈ members, value m = token) ∧
        ∃ out', tokens.foldlM (addMember printable what members value) out = .ok out') ∨
      ((∃ token ∈ tokens, ∀ m ∈ members, value m ≠ token) ∧
        ∃ detail, tokens.foldlM (addMember printable what members value) out =
          raise invalidInput detail) := by
  induction tokens generalizing out with
  | nil => exact .inl ⟨nofun, out, rfl⟩
  | cons token tokens ih =>
      rw [List.foldlM_cons]
      obtain ⟨hknown, out', hout⟩ | ⟨hunknown, detail, hraise⟩ :=
        addMember_cases printable what members value out token
      · rw [hout, ok_bind]
        obtain ⟨hrest, hok⟩ | ⟨⟨bad, hbad, hno⟩, hraise⟩ := ih out'
        · exact .inl ⟨List.forall_mem_cons.mpr ⟨hknown, hrest⟩, hok⟩
        · exact .inr ⟨⟨bad, List.mem_cons_of_mem _ hbad, hno⟩, hraise⟩
      · rw [hraise]
        exact .inr ⟨⟨token, List.mem_cons_self, hunknown⟩, detail, rfl⟩

/-- The items are values of the enum, or one of them is refused. -/
theorem parseMembers_cases {raw : Option Text} {tokens : List Text}
    (htokens : parseCsv raw 50 = some tokens) :
    (¬ UnknownToken members value raw ∧
        ∃ out, parseMembers printable what members value tokens = .ok out) ∨
      (UnknownToken members value raw ∧
        ∃ detail, parseMembers printable what members value tokens =
          raise invalidInput detail) := by
  obtain ⟨hknown, hok⟩ | ⟨hunknown, hraise⟩ :=
    foldlM_addMember_cases printable what members value tokens ∅
  · refine .inl ⟨?_, hok⟩
    rintro ⟨tokens', heq, token, htoken, hno⟩
    rw [htokens] at heq
    cases heq
    obtain ⟨m, hm, hvalue⟩ := hknown token htoken
    exact hno m hm hvalue
  · exact .inr ⟨⟨tokens, htokens, hunknown⟩, hraise⟩

end

theorem not_unknownToken_none {α : Type} {members : List α} {value : α → Text}
    {raw : Option Text} (h : parseCsv raw 50 = none) : ¬ UnknownToken members value raw := by
  rintro ⟨tokens, heq, -⟩
  rw [h] at heq
  cases heq

theorem parseSeverities_cases (printable : Nat → Bool) (raw : Option Text) :
    (¬ UnknownToken Severity.members Severity.value raw ∧
        ∃ out, parseSeverities printable raw = .ok out ∧ out ≠ some ∅) ∨
      (UnknownToken Severity.members Severity.value raw ∧
        ∃ detail, parseSeverities printable raw = raise invalidInput detail) := by
  rw [parseSeverities]
  cases hcsv : parseCsv raw 50 with
  | none => exact .inl ⟨not_unknownToken_none hcsv, none, rfl, nofun⟩
  | some tokens =>
      dsimp only
      obtain ⟨hknown, out, hout⟩ | ⟨hunknown, detail, hraise⟩ := parseMembers_cases printable
        (text "severity") Severity.members Severity.value hcsv
      · refine .inl ⟨hknown, _, by rw [hout]; rfl, ?_⟩
        split
        · exact nofun
        · rename_i hne
          intro heq
          exact hne (Option.some.inj heq)
      · exact .inr ⟨hunknown, detail, by rw [hraise]; rfl⟩

theorem parseStatuses_cases (printable : Nat → Bool) (raw : Option Text) :
    (¬ UnknownToken Status.members Status.value raw ∧
        ∃ out, parseStatuses printable raw = .ok out ∧ out ≠ ∅) ∨
      (UnknownToken Status.members Status.value raw ∧
        ∃ detail, parseStatuses printable raw = raise invalidInput detail) := by
  rw [parseStatuses]
  cases hcsv : parseCsv raw 50 with
  | none =>
      exact .inl ⟨not_unknownToken_none hcsv, _, rfl, Finset.singleton_ne_empty _⟩
  | some tokens =>
      dsimp only
      obtain ⟨hknown, out, hout⟩ | ⟨hunknown, detail, hraise⟩ := parseMembers_cases printable
        (text "status") Status.members Status.value hcsv
      · refine .inl ⟨hknown, _, by rw [hout]; rfl, ?_⟩
        split
        · exact Finset.singleton_ne_empty _
        · assumption
      · exact .inr ⟨hunknown, detail, by rw [hraise]; rfl⟩

/-! ### The window -/

/-- The text of `since`, where it is not blank. -/
def sinceText (raw : Option Text) : Option Text := raw.filter fun raw => strip raw ≠ []

def SinceUnreadable (raw : Option Text) : Prop :=
  ∃ s, sinceText raw = some s ∧ fromisoformat? (isoTextOf s) = none

/-- The instant in UTC of what was read, which without an offset is in UTC itself. -/
def utcInstant (d : DateTime) : Int := d.localMicros - (d.offset.getD .utc).micros

/-- The window begins within the calendar: where `since` says, or a day before now. -/
def WindowInCalendar (serverTime : UtcTime) (raw : Option Text) : Prop :=
  match sinceText raw with
  | some s => ∀ d, fromisoformat? (isoTextOf s) = some d → InCalendar (utcInstant d)
  | none => 2 ≤ serverTime.date.ordinal

theorem parseSince_none {raw : Option Text} (h : sinceText raw = none) :
    parseSince printable raw = .ok none := by
  cases raw with
  | none => rfl
  | some raw =>
      rw [sinceText, Option.filter_some] at h
      split at h
      · cases h
      · rename_i hblank
        rw [parseSince, if_pos (by simpa using hblank)]

theorem parseSince_some {raw : Option Text} {s : Text} (h : sinceText raw = some s) :
    parseSince printable raw = (do
      let parsed ← tryExcept (fromisoformat (isoTextOf s)) [.valueError] fun _ =>
        raise invalidInput (text "since " ++ reprText printable s ++
          text " is not a valid RFC 3339 / ISO-8601 timestamp")
      some <$> toUtc parsed.date parsed.time (parsed.offset.getD .utc)) := by
  cases raw with
  | none => cases h
  | some raw =>
      rw [sinceText, Option.filter_some] at h
      split at h
      · rename_i htext
        obtain rfl := Option.some.inj h
        rw [parseSince, if_neg (by simpa using htext)]
      · cases h

/-- The three ends of `_parse_since` on a text. -/
theorem parseSince_cases (printable : Nat → Bool) {raw : Option Text} {s : Text}
    (h : sinceText raw = some s) :
    (SinceUnreadable raw ∧ ∃ detail, parseSince printable raw = raise invalidInput detail) ∨
      (¬ SinceUnreadable raw ∧
        (∀ d, fromisoformat? (isoTextOf s) = some d → InCalendar (utcInstant d)) ∧
        ∃ t, parseSince printable raw = .ok (some t)) ∨
      (¬ SinceUnreadable raw ∧
        ¬ (∀ d, fromisoformat? (isoTextOf s) = some d → InCalendar (utcInstant d)) ∧
        parseSince printable raw = raise .overflowError) := by
  rw [parseSince_some h, fromisoformat]
  cases hiso : fromisoformat? (isoTextOf s) with
  | none =>
      exact .inl ⟨⟨s, h, hiso⟩, _, rfl⟩
  | some d =>
      have hreads : ¬ SinceUnreadable raw := by
        rintro ⟨s', hs', hnone⟩
        rw [h] at hs'
        cases hs'
        rw [hiso] at hnone
        cases hnone
      rw [tryExcept_ok, ok_bind]
      obtain ⟨hin, t, ht⟩ | ⟨hout, hraise⟩ := toUtc_cases d.date d.time (d.offset.getD .utc)
      · refine .inr (.inl ⟨hreads, ?_, t, by rw [ht]; rfl⟩)
        intro d' hd'
        cases hd'
        exact hin
      · exact .inr (.inr ⟨hreads, fun hall => hout (hall d rfl), by rw [hraise]; rfl⟩)

theorem defaultWindow_cases (serverTime : UtcTime) :
    (2 ≤ serverTime.date.ordinal ∧ ∃ t, defaultWindow serverTime = .ok t) ∨
      (¬ 2 ≤ serverTime.date.ordinal ∧ defaultWindow serverTime = raise .overflowError) := by
  have hle := serverTime.date.ordinal_le
  by_cases h : 2 ≤ serverTime.date.ordinal
  · obtain ⟨d, hd⟩ := Date.ofOrdinal_ok
      (show 1 ≤ (serverTime.date.ordinal : Int) - 1 by omega) (by omega)
    exact .inl ⟨h, ⟨d, serverTime.time⟩, by rw [defaultWindow, hd]; rfl⟩
  · have hday : Date.ofOrdinal (serverTime.date.ordinal - 1) = raise .overflowError :=
      if_neg (by omega)
    exact .inr ⟨h, by rw [defaultWindow, hday]; rfl⟩

/-! ### The filters -/

/-- The items of `source` that are kept are not longer than the filters allow. -/
def SourcesFit (raw : Option Text) : Prop :=
  ∀ tokens, parseCsv raw 20 = some tokens → ∀ token ∈ tokens, token.length ≤ sourceMaxLen

def AlarmsInputs.fields (inputs : AlarmsInputs) (since : UtcTime) (limit : Int) :
    AlarmFilterFields where
  statuses := inputs.statuses
  severities := inputs.severities
  sources := inputs.sources
  since := some since.toDateTime
  limit := limit

/-- The checks of the filters, on what the parsers leave. -/
theorem postInit_iff {inputs : AlarmsInputs} {raw : Option Text} {limit : Int}
    (hstatuses : inputs.statuses ≠ ∅) (hseverities : inputs.severities ≠ some ∅)
    (hsources : inputs.sources = parseCsv raw 20) (hlimit : limitMin ≤ limit ∧ limit ≤ limitMax)
    (since : UtcTime) :
    (inputs.fields since limit).postInit = .ok () ↔ SourcesFit raw := by
  have haware : since.toDateTime.offset ≠ none := nofun
  have hrange : ¬ (limit < limitMin ∨ limitMax < limit) := by omega
  simp only [AlarmFilterFields.postInit, AlarmsInputs.fields, then_ok_iff, refuseIf_ok_iff,
    forM_ok_iff, requireAware, hstatuses, hseverities, hrange, not_false_eq_true, true_and,
    Option.some.injEq, hsources, forall_eq', haware, and_true, SourcesFit]
  constructor
  · intro h tokens htokens token htoken
    by_contra hlong
    exact (h tokens htokens).2 ⟨token, htoken, .inr (Nat.not_le.mp hlong)⟩
  · intro h tokens htokens
    obtain ⟨hne, hall⟩ := parseCsv_some (by decide) htokens
    refine ⟨hne, ?_⟩
    rintro ⟨token, htoken, hempty | hlong⟩
    · exact hall token htoken hempty
    · exact absurd (h tokens htokens token htoken) (Nat.not_le.mpr hlong)

theorem make_settles_iff {inputs : AlarmsInputs} {raw : Option Text} {limit : Int}
    (hstatuses : inputs.statuses ≠ ∅) (hseverities : inputs.severities ≠ some ∅)
    (hsources : inputs.sources = parseCsv raw 20) (hlimit : limitMin ≤ limit ∧ limit ≤ limitMax)
    {since : UtcTime} :
    (∃ (filters : AlarmListFilters) (t : UtcTime),
      AlarmListFilters.make (inputs.fields since limit) = .ok filters ∧
        filters.since = some t.toDateTime) ↔ SourcesFit raw := by
  rw [← postInit_iff hstatuses hseverities hsources hlimit since]
  cases hinit : (inputs.fields since limit).postInit with
  | ok u => exact iff_of_true ⟨_, since, AlarmListFilters.make_ok hinit, rfl⟩ rfl
  | error e =>
      rw [AlarmListFilters.make_error hinit]
      refine iff_of_false ?_ (fun h => by cases h)
      rintro ⟨filters, t, hok, -⟩
      cases hok

/-- The query ends in a 400, or in filters whose `since` is an instant in UTC. -/
def AlarmsQuery.Settles (q : AlarmsQuery) (printable : Nat → Bool) (serverTime : UtcTime) : Prop :=
  (∃ e, alarmsFilters printable serverTime q = .ok (.inl (invalidInputResponse e))) ∨
    ∃ (filters : AlarmListFilters) (t : UtcTime),
      alarmsFilters printable serverTime q = .ok (.inr filters) ∧
        filters.since = some t.toDateTime

/-- An item of the two enums is unknown, or `since` is no timestamp. -/
def AlarmsQuery.Refused (q : AlarmsQuery) : Prop :=
  UnknownToken Severity.members Severity.value q.severity ∨
    UnknownToken Status.members Status.value q.status ∨ SinceUnreadable q.since

variable {serverTime : UtcTime} {q : AlarmsQuery}

theorem settles_of_refused (detail : Text)
    (h : parseInputs printable q = raise invalidInput detail) : q.Settles printable serverTime := by
  refine .inl ⟨⟨invalidInput, detail⟩, ?_⟩
  rw [alarmsFilters, guardedInputs, h]
  rfl

theorem not_settles_of_overflow (h : parseInputs printable q = raise .overflowError) :
    ¬ q.Settles printable serverTime := by
  have hescapes : alarmsFilters printable serverTime q = raise .overflowError := by
    rw [alarmsFilters, guardedInputs, h]
    rfl
  rw [AlarmsQuery.Settles, hescapes]
  rintro (⟨e, he⟩ | ⟨filters, t, hfilters, -⟩)
  · cases he
  · cases hfilters

theorem settles_iff_filters {inputs : AlarmsInputs} (h : parseInputs printable q = .ok inputs) :
    q.Settles printable serverTime ↔
      ∃ (filters : AlarmListFilters) (t : UtcTime),
        inputs.filters serverTime q.limit = .ok filters ∧
          filters.since = some t.toDateTime := by
  have hfilters : alarmsFilters printable serverTime q =
      Sum.inr <$> inputs.filters serverTime q.limit := by
    rw [alarmsFilters, guardedInputs, h]
    rfl
  rw [AlarmsQuery.Settles, hfilters]
  constructor
  · rintro (⟨e, he⟩ | ⟨filters, t, hok, hsince⟩)
    · obtain ⟨filters, -, heq⟩ := map_eq_ok_iff.mp he
      cases heq
    · obtain ⟨filters', hok', heq⟩ := map_eq_ok_iff.mp hok
      cases heq
      exact ⟨filters, t, hok', hsince⟩
  · rintro ⟨filters, t, hok, hsince⟩
    exact .inr ⟨filters, t, map_eq_ok_iff.mpr ⟨filters, hok, rfl⟩, hsince⟩

/-- Once the guarded block is left, the length of the sources and the default window decide. -/
theorem settles_of_inputs {inputs : AlarmsInputs} (h : parseInputs printable q = .ok inputs)
    (hstatuses : inputs.statuses ≠ ∅) (hseverities : inputs.severities ≠ some ∅)
    (hsources : inputs.sources = parseCsv q.source 20) :
    q.Settles printable serverTime ↔
      SourcesFit q.source ∧ (inputs.since = none → 2 ≤ serverTime.date.ordinal) := by
  rw [settles_iff_filters h]
  cases hsince : inputs.since with
  | some since =>
      have hfilters : inputs.filters serverTime q.limit =
          AlarmListFilters.make (inputs.fields since q.limit) := by
        rw [AlarmsInputs.filters, hsince]
        rfl
      rw [hfilters, make_settles_iff hstatuses hseverities hsources q.limit_range]
      exact ⟨fun hfit => ⟨hfit, nofun⟩, And.left⟩
  | none =>
      have hfilters : inputs.filters serverTime q.limit = defaultWindow serverTime >>= fun since =>
          AlarmListFilters.make (inputs.fields since q.limit) := by
        rw [AlarmsInputs.filters, hsince]
        rfl
      rw [hfilters]
      obtain ⟨hday, since, hwindow⟩ | ⟨hday, hraise⟩ := defaultWindow_cases serverTime
      · rw [hwindow, ok_bind,
          make_settles_iff hstatuses hseverities hsources q.limit_range]
        exact ⟨fun hfit => ⟨hfit, fun _ => hday⟩, And.left⟩
      · refine iff_of_false ?_ fun hboth => hday (hboth.2 rfl)
        rw [hraise]
        rintro ⟨filters, t, hok, -⟩
        cases hok

/-- What the two enums make of the guarded block: the end of it, or `since` decides. -/
theorem parseInputs_cases (printable : Nat → Bool) (q : AlarmsQuery) :
    ((UnknownToken Severity.members Severity.value q.severity ∨
        UnknownToken Status.members Status.value q.status) ∧
        ∃ detail, parseInputs printable q = raise invalidInput detail) ∨
      (¬ (UnknownToken Severity.members Severity.value q.severity ∨
        UnknownToken Status.members Status.value q.status) ∧
        ∃ severities statuses, severities ≠ some ∅ ∧ statuses ≠ ∅ ∧
          parseInputs printable q =
            (fun since => ⟨severities, statuses, parseCsv q.source 20, since⟩) <$>
              parseSince printable q.since) := by
  rw [parseInputs]
  obtain ⟨hseverity, severities, hseverities, hnotSome⟩ | ⟨hseverity, detail, hraise⟩ :=
    parseSeverities_cases printable q.severity
  swap
  · exact .inl ⟨.inl hseverity, detail, by rw [hraise]; rfl⟩
  obtain ⟨hstatus, statuses, hstatuses, hnotEmpty⟩ | ⟨hstatus, detail, hraise⟩ :=
    parseStatuses_cases printable q.status
  swap
  · exact .inl ⟨.inr hstatus, detail, by rw [hseverities, ok_bind, hraise]; rfl⟩
  refine .inr ⟨not_or.mpr ⟨hseverity, hstatus⟩, severities, statuses, hnotSome, hnotEmpty, ?_⟩
  rw [hseverities, ok_bind, hstatuses, ok_bind]
  rfl

/-- The parsing of the query ends in a 400 or in filters exactly where something is refused in
the guarded block, or the sources are short enough and the window begins within the calendar. -/
theorem alarmsFilters_settles_iff (printable : Nat → Bool) (serverTime : UtcTime)
    (q : AlarmsQuery) :
    q.Settles printable serverTime ↔
      q.Refused ∨ (SourcesFit q.source ∧ WindowInCalendar serverTime q.since) := by
  obtain ⟨hunknown, detail, hraise⟩ |
      ⟨hknown, severities, statuses, hnotSome, hnotEmpty, hinputs⟩ :=
    parseInputs_cases printable q
  · exact iff_of_true (settles_of_refused detail hraise) (.inl (or_assoc.mp (.inl hunknown)))
  rw [AlarmsQuery.Refused, ← or_assoc, or_iff_right hknown]
  cases htext : sinceText q.since with
  | none =>
      have hsince : ¬ SinceUnreadable q.since := by
        rintro ⟨s, hs, -⟩
        rw [htext] at hs
        cases hs
      rw [parseSince_none htext] at hinputs
      rw [settles_of_inputs hinputs hnotEmpty hnotSome rfl, or_iff_right hsince,
        WindowInCalendar, htext]
      exact and_congr_right fun _ => ⟨fun h => h rfl, fun h _ => h⟩
  | some s =>
      obtain ⟨hsince, detail, hraise⟩ | ⟨hsince, hwindow, t, ht⟩ | ⟨hsince, hwindow, hraise⟩ :=
        parseSince_cases printable htext
      · rw [hraise] at hinputs
        exact iff_of_true (settles_of_refused detail hinputs) (.inl hsince)
      · rw [ht] at hinputs
        rw [settles_of_inputs hinputs hnotEmpty hnotSome rfl, or_iff_right hsince,
          WindowInCalendar, htext]
        exact and_congr_right fun _ => ⟨fun _ => hwindow, fun _ => nofun⟩
      · rw [hraise] at hinputs
        refine iff_of_false (not_settles_of_overflow hinputs) ?_
        rw [or_iff_right hsince, WindowInCalendar, htext]
        exact fun h => hwindow h.2

/-- A source of 65 characters. -/
def longSource : AlarmsQuery where
  source := some (List.replicate 65 120)
  limit_range := limitDefault_range

/-- It passes the parsers, and nothing answers what the filters raise. -/
theorem alarmsFilters_escapes :
    ¬ longSource.Settles (fun _ => true) ⟨sampleDate, Time.midnight⟩ := by
  have hinputs : parseInputs (fun _ => true) longSource =
      .ok ⟨none, {.active}, some [List.replicate 65 120], none⟩ := rfl
  have hlong : ¬ SourcesFit longSource.source := by
    intro hfit
    exact absurd (hfit [List.replicate 65 120] rfl _ List.mem_cons_self) (by decide)
  rw [settles_of_inputs hinputs (Finset.singleton_ne_empty _) (by decide) rfl]
  exact fun h => hlong h.1

end NexusBackend
