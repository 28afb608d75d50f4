import NexusBackend.Kis.Session
import NexusBackend.Library.Strptime

/-!
How `authenticate` ends, by the answer of the token endpoint.

It settles where it returns with a token or raises an error of its own with the client failed.
What goes past its handlers: an error of the POST that `httpx` has no class for, a body beyond
the recursion limit, an expiry that is no date, and a token that is no string.
-/
namespace NexusBackend
namespace KisClient

open Python

/-! ### The wall clock of a response -/

/-- The wall-clock text of `_compute_expiry` as an instant. -/
def parseKst (wall : Text) : Except Exn Int := do
  let (date, time) ← strptime wall
  return (← toUtc date time kst).instant

/-- The text is a time that has no UTC date: before nine on the first day of year 1. -/
def BeforeCalendar (wall : Text) : Prop :=
  ∃ date time, strptime wall = .ok (date, time) ∧ date.ordinal = 1 ∧ time.hour < 9

theorem kst_day (time : Time) : (time.micros - kst.micros) / dayMicros =
    if time.hour < 9 then -1 else 0 := by
  have hvalid := time.valid
  simp only [Time.micros, kst, dayMicros]
  split
  · omega
  · omega

theorem toUtc_kst_ok {date : Date} {time : Time} (h : ¬(date.ordinal = 1 ∧ time.hour < 9)) :
    ∃ t, toUtc date time kst = .ok t := by
  have h1 := date.one_le_ordinal
  have h2 := date.ordinal_le
  refine toUtc_of_range ?_ ?_
  · rw [kst_day]
    split
    · omega
    · omega
  · rw [kst_day]
    split
    · omega
    · omega

theorem toUtc_kst_error {date : Date} {time : Time} (h1 : date.ordinal = 1)
    (h2 : time.hour < 9) : toUtc date time kst = raise .overflowError := by
  rw [toUtc]
  dsimp only
  rw [kst_day, if_pos h2, h1]
  rfl

theorem parseKst_escapes_iff (wall : Text) :
    Escapes [.valueError] (parseKst wall) ↔ BeforeCalendar wall := by
  have hread : ¬ Escapes [.valueError] (strptime wall) := by
    apply (strptime_ends wall).not_escapes
    intro e he
    exact Exn.isInstance_of_mem _ he List.mem_cons_self
  rw [parseKst, escapes_bind_iff]
  constructor
  · rintro (h | ⟨⟨date, time⟩, hok, h⟩)
    · exact absurd h hread
    · by_cases hbefore : date.ordinal = 1 ∧ time.hour < 9
      · exact ⟨date, time, hok, hbefore⟩
      · obtain ⟨t, ht⟩ := toUtc_kst_ok hbefore
        dsimp only at h
        rw [ht] at h
        exact absurd h (not_escapes_ok _ _)
  · rintro ⟨date, time, hok, h1, h2⟩
    refine .inr ⟨(date, time), hok, ?_⟩
    dsimp only
    rw [toUtc_kst_error h1 h2]
    exact ⟨_, rfl, by decide⟩

/-! ### The expiry -/

/-- `isinstance(v, (int, float)) and v > 0`. -/
def IsPositive : Json → Prop
  | .bool b => b = true
  | .int n => 0 < n
  | .float (.finite q) => 0 < q
  | .float (.inf negative) => negative = false
  | _ => False

/-- `now + timedelta(seconds=float(v))` is a time before the end of year 9999. -/
def FitsCalendar (v : Json) (now : Int) : Prop :=
  ∃ x us, v.toFloat = .ok x ∧ secondsMicros x = .ok us ∧ now + us < calendarMicros

/-- The lifetime fits the calendar where there is one, else the wall-clock text does. -/
def ExpiryFits (pairs : List (Text × Json)) (now : Int) : Prop :=
  (∀ v, Json.get? pairs (text "expires_in") = some v → IsPositive v → FitsCalendar v now) ∧
  ((∀ v, Json.get? pairs (text "expires_in") = some v → ¬ IsPositive v) →
    ∀ wall, Json.get? pairs (text "access_token_token_expired") = some (.str wall) →
      ¬ BeforeCalendar wall)

theorem positiveSeconds_pos {v : Json} (h : IsPositive v) :
    positiveSeconds? v = some <$> v.toFloat := by
  cases v with
  | bool b =>
      obtain rfl : b = true := h
      rfl
  | int n => exact if_pos h
  | float x =>
      cases x with
      | finite q => exact congrArg Except.ok (if_pos h)
      | inf negative =>
          obtain rfl : negative = false := h
          rfl
      | nan => exact h.elim
  | null => exact h.elim
  | str s => exact h.elim
  | arr items => exact h.elim
  | obj pairs => exact h.elim

theorem positiveSeconds_nonpos {v : Json} (h : ¬ IsPositive v) :
    positiveSeconds? v = .ok none := by
  cases v with
  | bool b =>
      obtain rfl : b = false := Bool.eq_false_of_not_eq_true h
      rfl
  | int n => exact if_neg h
  | float x =>
      cases x with
      | finite q => exact congrArg Except.ok (if_neg h)
      | inf negative =>
          obtain rfl : negative = true := Bool.eq_true_of_not_eq_false h
          rfl
      | nan => rfl
  | null => rfl
  | str s => rfl
  | arr items => rfl
  | obj pairs => rfl

/-- The fields that the expiry is read from. -/
def expiryOf (expiresIn wall : Json) (now : Int) : Except Exn (Option Int) := do
  match ← positiveSeconds? expiresIn with
  | some seconds =>
      let expires := now + (← secondsMicros seconds)
      if expires < calendarMicros then return some expires else raise .overflowError
  | none =>
      match wall with
      | .str wall => tryExcept (some <$> parseKst wall) [.valueError] fun _ => .ok none
      | _ => return none

theorem computeExpiry_obj (pairs : List (Text × Json)) (now : Int) :
    computeExpiry parseKst (.obj pairs) now =
      expiryOf ((Json.get? pairs (text "expires_in")).getD .null)
        ((Json.get? pairs (text "access_token_token_expired")).getD .null) now := rfl

theorem expiryOf_positive_iff {v wall : Json} {now : Int} (h : IsPositive v) :
    (expiryOf v wall now).isOk = true ↔ FitsCalendar v now := by
  unfold expiryOf
  rw [positiveSeconds_pos h, FitsCalendar]
  cases v.toFloat with
  | error e => exact iff_of_false nofun fun ⟨_, _, hx, _⟩ => nomatch hx
  | ok x =>
      change Except.isOk (secondsMicros x >>= fun us => if now + us < calendarMicros then
        pure (some (now + us)) else raise .overflowError) = true ↔ _
      cases hus : secondsMicros x with
      | error e =>
          refine iff_of_false nofun ?_
          rintro ⟨x', us, hx, hus', -⟩
          cases hx
          rw [hus] at hus'
          cases hus'
      | ok us =>
          change Except.isOk (if now + us < calendarMicros then pure (some (now + us))
            else raise .overflowError : Except Exn (Option Int)) = true ↔ _
          constructor
          · intro hok
            split at hok
            · rename_i hlt
              exact ⟨x, us, rfl, hus, hlt⟩
            · cases hok
          · rintro ⟨x', us', hx, hus', hlt⟩
            cases hx
            rw [hus] at hus'
            cases hus'
            rw [if_pos hlt]
            rfl

theorem expiryOf_nonpos_iff {v wall : Json} {now : Int} (h : ¬ IsPositive v) :
    (expiryOf v wall now).isOk = true ↔ ∀ s, wall = .str s → ¬ BeforeCalendar s := by
  unfold expiryOf
  rw [positiveSeconds_nonpos h]
  change Except.isOk (match wall with
    | .str wall => tryExcept (some <$> parseKst wall) [.valueError] fun _ => .ok none
    | _ => pure none) = true ↔ _
  cases wall with
  | str s =>
      change (tryExcept (some <$> parseKst s) [.valueError] fun _ => .ok none).isOk = true ↔ _
      rw [tryExcept_isOk_iff _ _ _ fun _ => rfl, escapes_map_iff, parseKst_escapes_iff]
      exact ⟨fun hs s' hs' => Json.str.inj hs' ▸ hs, fun hs => hs s rfl⟩
  | null => exact iff_of_true rfl nofun
  | bool b => exact iff_of_true rfl nofun
  | int n => exact iff_of_true rfl nofun
  | float x => exact iff_of_true rfl nofun
  | arr items => exact iff_of_true rfl nofun
  | obj pairs => exact iff_of_true rfl nofun

theorem computeExpiry_isOk_iff (pairs : List (Text × Json)) (now : Int) :
    (computeExpiry parseKst (.obj pairs) now).isOk = true ↔ ExpiryFits pairs now := by
  rw [computeExpiry_obj, ExpiryFits]
  have hwall (s : Text) : (Json.get? pairs (text "access_token_token_expired")).getD .null =
      .str s ↔ Json.get? pairs (text "access_token_token_expired") = some (.str s) := by
    cases Json.get? pairs (text "access_token_token_expired") with
    | none => exact iff_of_false nofun nofun
    | some v => exact ⟨congrArg some, Option.some.inj⟩
  by_cases hpos : IsPositive ((Json.get? pairs (text "expires_in")).getD .null)
  · rw [expiryOf_positive_iff hpos]
    cases hget : Json.get? pairs (text "expires_in") with
    | none =>
        rw [hget] at hpos
        exact hpos.elim
    | some v =>
        rw [hget] at hpos
        constructor
        · intro hfits
          exact ⟨fun w hw _ => Option.some.inj hw ▸ hfits, fun hnot => absurd hpos (hnot v rfl)⟩
        · exact fun hfits => hfits.1 v rfl hpos
  · rw [expiryOf_nonpos_iff hpos]
    have hnot (v : Json) (hv : Json.get? pairs (text "expires_in") = some v) : ¬ IsPositive v := by
      rw [hv] at hpos
      exact hpos
    constructor
    · intro hs
      exact ⟨fun v hv hp => absurd hp (hnot v hv), fun _ s hget => hs s ((hwall s).mpr hget)⟩
    · exact fun hfits s hget => hfits.2 hnot s ((hwall s).mp hget)

/-! ### Settling -/

/-- The subclasses of `KisError`. -/
def kisErrors : List ExnKind := [kisAuthError, kisUpstreamError]

/-- It returned with a token in hand, or raised an error of the client with the client failed. -/
def Settles (r : Except Exn Unit × KisClient) : Prop :=
  (r.1 = .ok () ∧ r.2.state = .authenticated ∧ ∃ a as, r.2.accessToken = .str (a :: as)) ∨
    ∃ e, r.1 = .error e ∧ e.isInstance kisErrors = true ∧ r.2.state = .failed

/-- The error envelope can be summarised. No decoder raises a `KisError` itself. -/
def EnvelopeReads (pr : Json.Printing) : Except Exn Json → Prop
  | .error e => e.isInstance (.valueError :: kisErrors) = true
  | .ok (.obj pairs) =>
      (firstOf pairs (text "error_code") (text "code")).depth ≤ pr.strLimit ∧
        (firstOf pairs (text "error_description") (text "message")).depth ≤ pr.strLimit
  | .ok _ => True

/-- The body is refused as malformed, or its token is a text and its expiry is a date. -/
def TokenReads (now : Int) : Except Exn Json → Prop
  | .error e => e.isInstance [.valueError, .keyError, .typeError] = true
  | .ok (.obj pairs) => ∀ token, Json.get? pairs (text "access_token") = some token →
      (∃ a as, token = .str (a :: as)) ∧ ExpiryFits pairs now
  | .ok _ => True

/-- The answer of the endpoint is one that the handlers of `authenticate` cover. -/
def Handled (pr : Json.Printing) (answer : Except Exn TextResponse) (now : Int) : Prop :=
  match answer with
  | .error e => e.isInstance [httpTimeout, httpError] = true
  | .ok resp =>
      if resp.statusCode = 401 ∨ resp.statusCode = 403 ∨ 400 ≤ resp.statusCode then
        EnvelopeReads pr resp.json
      else TokenReads now resp.json

theorem settles_failed_iff (x : Except Exn Unit) (c : KisClient) :
    Settles (x, { c with state := .failed }) ↔
      ∃ e, x = .error e ∧ e.isInstance kisErrors = true := by
  constructor
  · rintro (h | ⟨e, hx, he, -⟩)
    · cases h.2.1
    · exact ⟨e, hx, he⟩
  · rintro ⟨e, hx, he⟩
    exact .inr ⟨e, hx, he, rfl⟩

/-- An error status raises an error of the client but where its summary raises another one. -/
theorem refuse_iff (pr : Json.Printing) {kind : ExnKind} (hkind : kind ∈ kisErrors)
    (before after : Text) (resp : TextResponse) :
    (∃ e, (refuse pr kind before after resp : Except Exn Unit) = .error e ∧
      e.isInstance kisErrors = true) ↔
      ∀ e, safeJsonSummary pr resp = .error e → e.isInstance kisErrors = true := by
  rw [refuse]
  cases safeJsonSummary pr resp with
  | error e =>
      constructor
      · rintro ⟨e', he', hi⟩ e'' he''
        cases he'
        cases he''
        exact hi
      · exact fun h => ⟨e, rfl, h e rfl⟩
  | ok summary => exact iff_of_true ⟨_, rfl, Exn.isInstance_of_mem _ rfl hkind⟩ nofun

/-- The summary is lost where the envelope raises what is no `ValueError`. -/
theorem safeJsonSummary_iff (pr : Json.Printing) (resp : TextResponse) :
    (∀ e, safeJsonSummary pr resp = .error e → e.isInstance kisErrors = true) ↔
      ∀ e, envelopeSummary pr resp = .error e → e.isInstance (.valueError :: kisErrors) = true := by
  rw [safeJsonSummary]
  cases envelopeSummary pr resp with
  | ok summary => exact iff_of_true nofun nofun
  | error e =>
      have hcons : e.isInstance (.valueError :: kisErrors) =
          (e.isInstance [.valueError] || e.isInstance kisErrors) := by
        simp only [Exn.isInstance, List.any_cons, List.any_nil, Bool.or_false]
      cases hcaught : e.isInstance [.valueError] with
      | true =>
          rw [tryExcept_caught _ hcaught]
          refine iff_of_true nofun fun e' he' => ?_
          cases he'
          rw [hcons, hcaught]
          rfl
      | false =>
          rw [tryExcept_uncaught _ hcaught]
          constructor
          · intro h e' he'
            cases he'
            rw [hcons, h e rfl, Bool.or_true]
          · intro h e' he'
            cases he'
            have hi := h e rfl
            rwa [hcons, hcaught, Bool.false_or] at hi

theorem toStr_raises_iff {pr : Json.Printing} {v : Json} {e : Exn} :
    v.toStr pr = .error e ↔ ¬ v.depth ≤ pr.strLimit ∧ e = ⟨.recursionError, []⟩ := by
  rw [Json.toStr]
  split
  · rename_i h
    exact iff_of_false nofun fun hn => hn.1 h
  · rename_i h
    exact ⟨fun he => ⟨h, (Except.error.inj he).symm⟩, fun he => he.2 ▸ rfl⟩

theorem envelopeSummary_iff (pr : Json.Printing) (resp : TextResponse) :
    (∀ e, envelopeSummary pr resp = .error e → e.isInstance (.valueError :: kisErrors) = true) ↔
      EnvelopeReads pr resp.json := by
  have hrecursion :
      (⟨.recursionError, []⟩ : Exn).isInstance (.valueError :: kisErrors) = false := by
    decide
  have hraises {x : Except Exn (Option Text)} (hx : x = .error ⟨.recursionError, []⟩) :
      ¬ ∀ e, x = .error e → e.isInstance (.valueError :: kisErrors) = true := by
    intro h
    have hi := h _ hx
    rw [hrecursion] at hi
    cases hi
  rw [envelopeSummary]
  cases resp.json with
  | error e => exact ⟨fun h => h e rfl, fun h e' he' => Except.error.inj he' ▸ h⟩
  | ok v =>
      cases v with
      | obj pairs =>
          dsimp only [ok_bind]
          rw [EnvelopeReads]
          generalize firstOf pairs (text "error_code") (text "code") = code
          generalize firstOf pairs (text "error_description") (text "message") = desc
          cases hcode : code.toStr pr with
          | error e =>
              obtain ⟨hdepth, rfl⟩ := toStr_raises_iff.mp hcode
              exact iff_of_false (hraises rfl) fun h => hdepth h.1
          | ok codeText =>
              have hcode' : code.depth ≤ pr.strLimit := by
                by_contra hdepth
                rw [toStr_raises_iff.mpr ⟨hdepth, rfl⟩] at hcode
                cases hcode
              rw [and_iff_right hcode']
              cases hdesc : desc.toStr pr with
              | error e =>
                  obtain ⟨hdepth, rfl⟩ := toStr_raises_iff.mp hdesc
                  exact iff_of_false (hraises rfl) hdepth
              | ok descText =>
                  refine iff_of_true nofun ?_
                  by_contra hdepth
                  rw [toStr_raises_iff.mpr ⟨hdepth, rfl⟩] at hdesc
                  cases hdesc
      | null => exact iff_of_true nofun trivial
      | bool b => exact iff_of_true nofun trivial
      | int n => exact iff_of_true nofun trivial
      | float x => exact iff_of_true nofun trivial
      | str s => exact iff_of_true nofun trivial
      | arr items => exact iff_of_true nofun trivial

theorem settles_refuse_iff (pr : Json.Printing) {kind : ExnKind} (hkind : kind ∈ kisErrors)
    (before after : Text) (resp : TextResponse) (c : KisClient) :
    Settles (refuse pr kind before after resp, { c with state := .failed }) ↔
      EnvelopeReads pr resp.json := by
  rw [settles_failed_iff, refuse_iff pr hkind, safeJsonSummary_iff, envelopeSummary_iff]

theorem not_settles_raised {c : KisClient} (hc : c.state = .authenticating) (e : Exn) :
    ¬ Settles (.error e, c) := by
  rintro (h | ⟨e', -, -, hstate⟩)
  · cases h.1
  · rw [hc] at hstate
    cases hstate

theorem settles_takeToken_iff (pr : Json.Printing) {c : KisClient} (hc : c.state = .authenticating)
    (pairs : List (Text × Json)) (token tokenType : Json) (now : Int) :
    Settles (c.takeToken pr parseKst ⟨.obj pairs, token, tokenType⟩ now) ↔
      (∃ a as, token = .str (a :: as)) ∧ ExpiryFits pairs now := by
  rw [takeToken, ← computeExpiry_isOk_iff]
  cases computeExpiry parseKst (.obj pairs) now with
  | error e =>
      refine iff_of_false (not_settles_raised hc e) ?_
      rintro ⟨-, hok⟩
      cases hok
  | ok expires =>
      constructor
      · rintro (h | ⟨e', -, -, hstate⟩)
        · exact ⟨h.2.2, rfl⟩
        · cases hstate
      · rintro ⟨⟨a, as, rfl⟩, -⟩
        exact .inl ⟨rfl, rfl, a, as, rfl⟩

/-- A body that is taken, by its payload. -/
theorem readToken_obj {resp : TextResponse} {pairs : List (Text × Json)}
    (hjson : resp.json = .ok (.obj pairs)) :
    readToken resp = match Json.get? pairs (text "access_token") with
      | some token => .ok ⟨.obj pairs, token,
          (Json.get? pairs (text "token_type")).getD (.str (text "Bearer"))⟩
      | none => .error ⟨.keyError, subscriptMessage (.obj pairs) (text "access_token")⟩ := by
  rw [readToken, hjson]
  dsimp only [ok_bind]
  rw [subscript, Json.index]
  cases Json.get? pairs (text "access_token") with
  | none => rfl
  | some token => rfl

theorem readToken_other {resp : TextResponse} {v : Json} (hjson : resp.json = .ok v)
    (hv : ∀ pairs, v ≠ .obj pairs) : ∃ message, readToken resp = .error ⟨.typeError, message⟩ := by
  rw [readToken, hjson]
  dsimp only [ok_bind]
  rw [subscript]
  cases v with
  | obj pairs => exact absurd rfl (hv pairs)
  | null => exact ⟨_, rfl⟩
  | bool b => exact ⟨_, rfl⟩
  | int n => exact ⟨_, rfl⟩
  | float x => exact ⟨_, rfl⟩
  | str s => exact ⟨_, rfl⟩
  | arr items => exact ⟨_, rfl⟩

/-- The branch of a good status. -/
theorem settles_token_iff (pr : Json.Printing) {c : KisClient} (hc : c.state = .authenticating)
    (resp : TextResponse) (now : Int) :
    Settles (match readToken resp with
      | .error e =>
          if e.isInstance [.valueError, .keyError, .typeError] then
            (raise kisAuthError (text "KIS OAuth response malformed: " ++ e.message),
              { c with state := .failed })
          else (.error e, c)
      | .ok fields => c.takeToken pr parseKst fields now) ↔ TokenReads now resp.json := by
  have hmalformed (message : Text) :
      Settles (raise kisAuthError message, { c with state := .failed }) :=
    (settles_failed_iff _ c).mpr ⟨_, rfl, Exn.isInstance_of_mem _ rfl List.mem_cons_self⟩
  cases hjson : resp.json with
  | error e =>
      have hread : readToken resp = .error e := by rw [readToken, hjson]; rfl
      rw [hread]
      change Settles (if e.isInstance [.valueError, .keyError, .typeError] then _ else _) ↔
        e.isInstance [.valueError, .keyError, .typeError] = true
      cases e.isInstance [.valueError, .keyError, .typeError] with
      | true => exact iff_of_true (hmalformed _) rfl
      | false => exact iff_of_false (not_settles_raised hc e) nofun
  | ok v =>
      by_cases hobj : ∃ pairs, v = .obj pairs
      · obtain ⟨pairs, rfl⟩ := hobj
        rw [readToken_obj hjson, TokenReads]
        cases Json.get? pairs (text "access_token") with
        | none => exact iff_of_true (hmalformed _) nofun
        | some token =>
            dsimp only
            rw [settles_takeToken_iff pr hc]
            exact ⟨fun h token' ht => Option.some.inj ht ▸ h, fun h => h token rfl⟩
      · have hother (pairs : List (Text × Json)) : v ≠ .obj pairs := fun h => hobj ⟨pairs, h⟩
        obtain ⟨message, hread⟩ := readToken_other hjson hother
        rw [hread]
        refine iff_of_true (hmalformed _) ?_
        cases v with
        | obj pairs => exact absurd rfl (hother pairs)
        | null => trivial
        | bool b => trivial
        | int n => trivial
        | float x => trivial
        | str s => trivial
        | arr items => trivial

/-- From the POST on, `authenticate` settles exactly on the answers that its handlers cover. -/
theorem authenticated_settles_iff (pr : Json.Printing) {c : KisClient}
    (hc : c.state = .authenticating) (answer : Except Exn TextResponse) (now : Int) :
    Settles (c.authenticated pr parseKst answer now) ↔ Handled pr answer now := by
  have hauth : kisAuthError ∈ kisErrors := List.mem_cons_self
  have hupstream : kisUpstreamError ∈ kisErrors := List.mem_cons_of_mem _ List.mem_cons_self
  cases answer with
  | error e =>
      change Settles (.error _, if e.isInstance [httpTimeout, httpError] then _ else c) ↔
        e.isInstance [httpTimeout, httpError] = true
      cases hhttp : e.isInstance [httpTimeout, httpError] with
      | true =>
          rw [if_pos rfl, settles_failed_iff]
          refine iff_of_true ⟨_, rfl, ?_⟩ rfl
          rw [postError]
          split
          · exact Exn.isInstance_of_mem _ rfl hupstream
          · rename_i htimeout
            have hcons : e.isInstance [httpTimeout, httpError] =
                (e.isInstance [httpTimeout] || e.isInstance [httpError]) := by
              simp only [Exn.isInstance, List.any_cons, List.any_nil, Bool.or_false]
            rw [hcons, Bool.eq_false_of_not_eq_true htimeout, Bool.false_or] at hhttp
            rw [if_pos hhttp]
            exact Exn.isInstance_of_mem _ rfl hupstream
      | false =>
          rw [if_neg Bool.false_ne_true]
          exact iff_of_false (not_settles_raised hc _) nofun
  | ok resp =>
      rw [authenticated, Handled]
      by_cases hrejected : resp.statusCode = 401 ∨ resp.statusCode = 403
      · rw [if_pos hrejected, if_pos (hrejected.imp_right .inl)]
        exact settles_refuse_iff pr hauth _ _ resp c
      · rw [if_neg hrejected]
        by_cases herror : 400 ≤ resp.statusCode
        · rw [if_pos herror, if_pos (.inr (.inr herror))]
          exact settles_refuse_iff pr hupstream _ _ resp c
        · have hgood :
              ¬(resp.statusCode = 401 ∨ resp.statusCode = 403 ∨ 400 ≤ resp.statusCode) := by
            omega
          rw [if_neg herror, if_neg hgood]
          exact settles_token_iff pr hc resp now

end KisClient
end NexusBackend
