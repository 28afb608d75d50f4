import NexusBackend.Core.KeyFreshness

/-!
`get_current_user` for any number of requests at once, over one cache of signing keys.

A request is decided at once, or it asks `get_key` for the key of its token and is decided
in the step that answers it: between the key and the issuer of the cache nothing is awaited.
What the header was split into is given; a scheme other than bearer and a missing header
both come as no credentials. The token library is a parameter of each request.
-/
namespace NexusBackend

open Python Transition Machine

/-! ### A request before and after its key -/

/-- The arguments of `jwt.decode` behind the token and the key. -/
structure DecodeOptions where
  algorithms : List Text
  audience : Text
  issuer : Json
  verifySignature : Bool
  verifyAud : Bool
  verifyIss : Bool
  verifyExp : Bool
  verifyNbf : Bool

def decodeOptions (audience : Text) (issuer : Json) : DecodeOptions where
  algorithms := [text "RS256"]
  audience := audience
  issuer := issuer
  verifySignature := true
  verifyAud := true
  verifyIss := true
  verifyExp := true
  verifyNbf := true

/-- The token library, as it answers one request. -/
structure Jose where
  unverifiedHeader : Text → Except Exn Json
  decode : Text → Json → DecodeOptions → Except Exn Json

/-- The outside of one request; the documents of the cache come in steps of their own. -/
def Jose.toWorld (jose : Jose) : AuthWorld where
  beforeLock := 0
  afterLock := 0
  refreshedAt := 0
  discovery := fun _ => raise .runtimeError
  keySet := fun _ => raise .runtimeError
  unverifiedHeader := jose.unverifiedHeader
  decode := fun token key audience issuer => jose.decode token key (decodeOptions audience issuer)

def AuthWorld.jose (world : AuthWorld) : Jose where
  unverifiedHeader := world.unverifiedHeader
  decode := fun token key options => world.decode token key options.audience options.issuer

/-- The principal of a development set-up. -/
def anonymous : Principal := { subject := text "anonymous", tenant := text "dev" }

/-- A request up to the call of `get_key`: a principal, or credentials and the kid of their
token. -/
def admission (pr : Json.Printing) (settings : AuthSettings) (jose : Jose) :
    Option Credentials → Except AuthFailure (Principal ⊕ Credentials × Json)
  | none =>
      if settings.appEnv = .development ∧ settings.hasEntraConfig = false then
        .ok (.inl anonymous)
      else .error (unauthorized (text "Missing bearer token"))
  | some creds =>
      if asciiLower creds.scheme ≠ text "bearer" then
        .error (unauthorized
          (text "Unsupported auth scheme: " ++ reprText pr.printable creds.scheme))
      else if settings.hasEntraConfig = false then
        .error (.http 500 (text "Entra not configured but a bearer token was presented") false)
      else (fun kid => .inr (creds, kid)) <$> readKeyId jose.toWorld creds.credentials

/-- What a request keeps while it waits for its key. -/
structure BearerRequest where
  creds : Credentials
  jose : Jose

/-- From the answer of `get_key` to the principal. -/
def concludeToken (pr : Json.Printing) (settings : AuthSettings) (a : KeyAnswer BearerRequest) :
    Except AuthFailure Principal :=
  a.result.mapError (keyFailure pr) >>=
    checkToken pr settings a.kept.jose.toWorld a.cache a.kept.creds.credentials

/-- Without interruption the two halves are `get_current_user`. -/
theorem getCurrentUser_eq (pr : Json.Printing) (settings : AuthSettings) (world : AuthWorld)
    (cache : JwksCache) (creds : Option Credentials) :
    getCurrentUser pr settings world cache creds =
      match admission pr settings world.jose creds with
      | .error failure => (.error failure, cache)
      | .ok (.inl principal) => (.ok principal, cache)
      | .ok (.inr (c, kid)) =>
          let (key, after) := cache.getKey pr settings world kid
          (concludeToken pr settings ⟨kid, ⟨c, world.jose⟩, key, after, world.refreshedAt⟩,
            after) := by
  cases creds with
  | none =>
      simp only [getCurrentUser, admission]
      split <;> rfl
  | some c =>
      simp only [getCurrentUser, admission, validateToken]
      split
      · rfl
      · split
        · rfl
        · have hread : readKeyId world.jose.toWorld c.credentials =
              readKeyId world c.credentials := rfl
          rw [hread]
          cases readKeyId world c.credentials with
          | error failure => rfl
          | ok kid => rfl

/-! ### All requests -/

inductive AuthLabel
  | request (creds : Option Credentials) (jose : Jose) (fastAt lockedAt : ℚ)
  | keys (l : JwksLabel BearerRequest)

inductive AuthEvent
  | keys (e : JwksEvent BearerRequest)
  | outcome (creds : Option Credentials) (jose : Jose) (result : Except AuthFailure Principal)

def JwksLabel.isCall {α : Type} : JwksLabel α → Bool
  | .call .. => true
  | _ => false

/-- The events of the cache among those of the requests. -/
def AuthEvent.key? : AuthEvent → Option (JwksEvent BearerRequest)
  | keys e => some e
  | outcome .. => none

def keyEvents (tr : List AuthEvent) : List (JwksEvent BearerRequest) := tr.filterMap AuthEvent.key?

namespace JwksConfig

/-- `_get_cache`, for the settings and the printing of one process. -/
def ofSettings (pr : Json.Printing) (settings : AuthSettings) : JwksConfig where
  settings := settings
  printing := pr

variable (cfg : JwksConfig)

/-- The request is decided in the step that answers its call. -/
def conclude : JwksEvent BearerRequest → List AuthEvent
  | .answered id a =>
      [.keys (.answered id a),
        .outcome (some a.kept.creds) a.kept.jose (concludeToken cfg.printing cfg.settings a)]
  | e => [.keys e]

def keyStep (s : JwksState BearerRequest) (l : JwksLabel BearerRequest) :
    Option (JwksState BearerRequest × List AuthEvent) :=
  (cfg.step s l).map fun (s', es) => (s', es.flatMap cfg.conclude)

def authStep (s : JwksState BearerRequest) :
    AuthLabel → Option (JwksState BearerRequest × List AuthEvent)
  | .request creds jose fastAt lockedAt =>
      match admission cfg.printing cfg.settings jose creds with
      | .error failure => some (s, [.outcome creds jose (.error failure)])
      | .ok (.inl principal) => some (s, [.outcome creds jose (.ok principal)])
      | .ok (.inr (c, kid)) => cfg.keyStep s (.call kid ⟨c, jose⟩ fastAt lockedAt)
  | .keys l => if l.isCall then none else cfg.keyStep s l

def authenticate : Machine (JwksState BearerRequest) AuthLabel AuthEvent := ⟨cfg.authStep⟩

end JwksConfig

/-! ### What stands behind an accepted token -/

/-- The subject of the claims: the `oid`, or else the `sub`. -/
def NamesSubject (pr : Json.Printing) (claims : Json) (subject : Text) : Prop :=
  ∃ oid sub v, claims.dictGet (text "oid") = .ok oid ∧ claims.dictGet (text "sub") = .ok sub ∧
    (oid.filter Json.truthy).or (sub.filter Json.truthy) = some v ∧ v.toStr pr = .ok subject

theorem readPrincipal_subject {pr : Json.Printing} {token : Text} {claims : Json}
    {principal : Principal} (h : readPrincipal pr token claims = .ok (some principal)) :
    NamesSubject pr claims principal.subject := by
  simp only [readPrincipal] at h
  obtain ⟨oid, hoid, h⟩ := bind_eq_ok_iff.mp h
  obtain ⟨sub, hsub, h⟩ := bind_eq_ok_iff.mp h
  split at h
  · cases h
  · rename_i v hv
    obtain ⟨roles, -, h⟩ := bind_eq_ok_iff.mp h
    obtain ⟨scopes, -, h⟩ := bind_eq_ok_iff.mp h
    obtain ⟨subject, hsubject, h⟩ := bind_eq_ok_iff.mp h
    obtain ⟨tid, -, h⟩ := bind_eq_ok_iff.mp h
    obtain ⟨tenant, -, h⟩ := bind_eq_ok_iff.mp h
    obtain ⟨roles, -, h⟩ := bind_eq_ok_iff.mp h
    cases h
    exact ⟨oid, sub, v, hoid, hsub, hv, hsubject⟩

theorem tenantMatches_true {settings : AuthSettings} {claims : Json}
    (h : tenantMatches settings claims = .ok true) :
    claims.dictGet (text "tid") = .ok (some (.str settings.entraTenantId)) := by
  rw [tenantMatches] at h
  cases hget : claims.dictGet (text "tid") with
  | error e =>
      rw [hget] at h
      cases h
  | ok tid =>
      rw [hget] at h
      have htid := Except.ok.inj h
      dsimp only at htid
      split at htid
      · rw [of_decide_eq_true htid]
      · cases htid

theorem checkToken_ok {pr : Json.Printing} {settings : AuthSettings} {world : AuthWorld}
    {cache : JwksCache} {token : Text} {key : Json} {principal : Principal}
    (hid : settings.entraTenantId ≠ [])
    (h : checkToken pr settings world cache token key = .ok principal) :
    world.decode token key (expectedAudience settings) (cache.resolvedIssuer settings) =
        .ok principal.claims ∧
      principal.claims.dictGet (text "tid") = .ok (some (.str settings.entraTenantId)) ∧
      NamesSubject pr principal.claims principal.subject := by
  have hverified := checkToken_verified h
  simp only [checkToken] at h
  split at h
  · cases h
  · obtain ⟨claims, hdecode, h⟩ := bind_eq_ok_iff.mp h
    simp only [checkClaims] at h
    obtain ⟨tenantOk, -, h⟩ := bind_eq_ok_iff.mp h
    split at h
    · cases h
    · obtain ⟨read, hread, h⟩ := bind_eq_ok_iff.mp h
      split at h
      · cases h
      · cases h
        have hnamed := readPrincipal_subject (mapError_eq_ok_iff.mp hread)
        obtain ⟨rfl, -⟩ := readPrincipal_token (mapError_eq_ok_iff.mp hread)
        exact ⟨mapError_eq_ok_iff.mp hdecode, tenantMatches_true (hverified.tenant hid), hnamed⟩

theorem readKeyId_ok {world : AuthWorld} {token : Text} {kid : Json}
    (h : readKeyId world token = .ok kid) :
    ∃ header, world.unverifiedHeader token = .ok header ∧
      header.dictGet (text "kid") = .ok (some kid) := by
  simp only [readKeyId] at h
  obtain ⟨header, hheader, h⟩ := bind_eq_ok_iff.mp h
  obtain ⟨found, hfound, h⟩ := bind_eq_ok_iff.mp h
  split at h
  · cases h
  · rename_i hkid
    cases h
    obtain ⟨rfl, -⟩ := Option.filter_eq_some_iff.mp hkid
    exact ⟨header, mapError_eq_ok_iff.mp hheader, mapError_eq_ok_iff.mp hfound⟩

/-! ### What an admitted request is -/

/-- A request that asks for the key `kid`. -/
def AsksFor (settings : AuthSettings) (kid : Json) (request : BearerRequest) : Prop :=
  asciiLower request.creds.scheme = text "bearer" ∧ settings.hasEntraConfig = true ∧
    ∃ header, request.jose.unverifiedHeader request.creds.credentials = .ok header ∧
      header.dictGet (text "kid") = .ok (some kid)

theorem admit_key {pr : Json.Printing} {settings : AuthSettings} {jose : Jose}
    {creds : Option Credentials} {c : Credentials} {kid : Json}
    (h : admission pr settings jose creds = .ok (.inr (c, kid))) :
    creds = some c ∧ AsksFor settings kid ⟨c, jose⟩ := by
  cases creds with
  | none =>
      rw [admission] at h
      split at h <;> cases h
  | some c' =>
      rw [admission] at h
      split at h
      · cases h
      · rename_i hscheme
        split at h
        · cases h
        · rename_i hconf
          cases hread : readKeyId jose.toWorld c'.credentials with
          | error failure =>
              rw [hread] at h
              cases h
          | ok kid' =>
              rw [hread] at h
              cases h
              exact ⟨rfl, not_not.mp hscheme, by simpa using hconf, readKeyId_ok hread⟩

theorem admit_principal {pr : Json.Printing} {settings : AuthSettings} {jose : Jose}
    {creds : Option Credentials} {principal : Principal}
    (h : admission pr settings jose creds = .ok (.inl principal)) :
    creds = none ∧ settings.appEnv = .development ∧ settings.hasEntraConfig = false ∧
      principal = anonymous := by
  cases creds with
  | none =>
      rw [admission] at h
      split at h
      · rename_i hdev
        cases h
        exact ⟨rfl, hdev.1, hdev.2, rfl⟩
      · cases h
  | some c =>
      rw [admission] at h
      split at h
      · cases h
      · split at h
        · cases h
        · cases hread : readKeyId jose.toWorld c.credentials with
          | error failure =>
              rw [hread] at h
              cases h
          | ok kid =>
              rw [hread] at h
              cases h

/-! ### Runs -/

theorem keyEvents_append (tr tr' : List AuthEvent) :
    keyEvents (tr ++ tr') = keyEvents tr ++ keyEvents tr' := List.filterMap_append

namespace JwksConfig

variable {cfg : JwksConfig}

theorem keyEvents_conclude (es : List (JwksEvent BearerRequest)) :
    keyEvents (es.flatMap cfg.conclude) = es := by
  induction es with
  | nil => rfl
  | cons e es ih =>
      rw [List.flatMap_cons, keyEvents_append, ih]
      cases e <;> rfl

theorem mem_conclude {es : List (JwksEvent BearerRequest)} {creds : Option Credentials}
    {jose : Jose} {result : Except AuthFailure Principal}
    (h : .outcome creds jose result ∈ es.flatMap cfg.conclude) :
    ∃ id a, .answered id a ∈ es ∧ creds = some a.kept.creds ∧ jose = a.kept.jose ∧
      result = concludeToken cfg.printing cfg.settings a := by
  obtain ⟨e, he, hmem⟩ := List.mem_flatMap.mp h
  cases e with
  | answered id a =>
      simp only [conclude, List.mem_cons, reduceCtorEq, AuthEvent.outcome.injEq, List.not_mem_nil,
        or_false, false_or] at hmem
      obtain ⟨rfl, rfl, rfl⟩ := hmem
      exact ⟨id, a, he, rfl, rfl, rfl⟩
  | refreshStarted id kid now => simp [conclude] at hmem
  | refreshed id cache => simp [conclude] at hmem
  | refreshFailed id e => simp [conclude] at hmem

/-- Where the outcome of a request comes from. -/
def Decided (cfg : JwksConfig) (tr : List AuthEvent) (creds : Option Credentials) (jose : Jose)
    (result : Except AuthFailure Principal) : Prop :=
  (∃ failure, result = .error failure) ∨
    (∃ principal, admission cfg.printing cfg.settings jose creds = .ok (.inl principal) ∧
      result = .ok principal) ∨
    ∃ id a, .answered id a ∈ keyEvents tr ∧ creds = some a.kept.creds ∧ jose = a.kept.jose ∧
      result = concludeToken cfg.printing cfg.settings a

theorem Decided.mono {tr es : List AuthEvent} {creds : Option Credentials} {jose : Jose}
    {result : Except AuthFailure Principal} (h : cfg.Decided tr creds jose result) :
    cfg.Decided (tr ++ es) creds jose result := by
  refine h.imp_right (Or.imp_right ?_)
  rintro ⟨id, a, ha, hrest⟩
  exact ⟨id, a, keyEvents_append tr es ▸ List.mem_append_left _ ha, hrest⟩

/-- The cache is sound, and every outcome has been decided. -/
structure AuthSound (cfg : JwksConfig) (first s : JwksState BearerRequest)
    (tr : List AuthEvent) : Prop where
  keys : ∃ flying, cfg.Sound (AsksFor cfg.settings) first s (keyEvents tr) flying
  decided : ∀ creds jose result, .outcome creds jose result ∈ tr →
    cfg.Decided tr creds jose result

variable {first s s' : JwksState BearerRequest} {tr es : List AuthEvent}

theorem AuthSound.keyStep (hpos : 0 < cfg.ttl) (h : cfg.AuthSound first s tr)
    {l : JwksLabel BearerRequest} (hl : Asks (AsksFor cfg.settings) l)
    (hs : cfg.keyStep s l = some (s', es)) : cfg.AuthSound first s' (tr ++ es) := by
  obtain ⟨⟨s'', es'⟩, hstep, heq⟩ := Option.map_eq_some_iff.mp hs
  obtain ⟨rfl, rfl⟩ := Prod.mk.inj heq
  obtain ⟨flying, hsound⟩ := h.keys
  have hevents : keyEvents (tr ++ es'.flatMap cfg.conclude) = keyEvents tr ++ es' := by
    rw [keyEvents_append, keyEvents_conclude]
  refine ⟨?_, ?_⟩
  · rw [hevents]
    exact hsound.step hpos hl hstep
  · intro creds jose result hmem
    rcases List.mem_append.mp hmem with hmem | hmem
    · exact (h.decided creds jose result hmem).mono
    · obtain ⟨id, a, ha, hrest⟩ := mem_conclude hmem
      refine .inr (.inr ⟨id, a, ?_, hrest⟩)
      rw [hevents]
      exact List.mem_append_right _ ha

/-- A request that is decided at once. -/
theorem AuthSound.outcome (h : cfg.AuthSound first s tr) {creds : Option Credentials}
    {jose : Jose} {result : Except AuthFailure Principal}
    (hdecided : cfg.Decided (tr ++ [.outcome creds jose result]) creds jose result) :
    cfg.AuthSound first s (tr ++ [.outcome creds jose result]) := by
  refine ⟨?_, ?_⟩
  · have hevents : keyEvents (tr ++ [.outcome creds jose result]) = keyEvents tr := by
      rw [keyEvents_append]
      exact List.append_nil _
    rw [hevents]
    exact h.keys
  · intro creds' jose' result' hmem
    rcases List.mem_append.mp hmem with hmem | hmem
    · exact (h.decided creds' jose' result' hmem).mono
    · cases List.mem_singleton.mp hmem
      exact hdecided

theorem AuthSound.step (hpos : 0 < cfg.ttl) (h : cfg.AuthSound first s tr) {l : AuthLabel}
    (hs : cfg.authStep s l = some (s', es)) : cfg.AuthSound first s' (tr ++ es) := by
  cases l with
  | request creds jose fastAt lockedAt =>
      rw [authStep] at hs
      cases hasked : admission cfg.printing cfg.settings jose creds with
      | error failure =>
          rw [hasked] at hs
          cases hs
          exact h.outcome (.inl ⟨failure, rfl⟩)
      | ok admitted =>
          rw [hasked] at hs
          cases admitted with
          | inl principal =>
              cases hs
              exact h.outcome (.inr (.inl ⟨principal, hasked, rfl⟩))
          | inr asked =>
              obtain ⟨c, kid⟩ := asked
              have hask : Asks (AsksFor cfg.settings) (.call kid ⟨c, jose⟩ fastAt lockedAt) :=
                (admit_key hasked).2
              exact h.keyStep hpos hask hs
  | keys l =>
      rw [authStep] at hs
      cases hcall : l.isCall with
      | true =>
          rw [hcall] at hs
          cases hs
      | false =>
          rw [hcall] at hs
          refine h.keyStep hpos ?_ hs
          cases l with
          | call kid kept fastAt lockedAt => cases hcall
          | _ => trivial

theorem authenticate_sound (hpos : 0 < cfg.ttl) {clock : ℚ} {ls : List AuthLabel}
    (hr : cfg.authenticate.run (.initial clock) ls = some (s, tr)) :
    cfg.AuthSound (.initial clock) s tr := by
  have hidle : (JwksState.initial clock : JwksState BearerRequest).Idle := ⟨rfl, nofun⟩
  have hstart : cfg.AuthSound (.initial clock) (.initial clock) [] :=
    ⟨⟨none, cfg.sound_of_idle hidle (.inl rfl)⟩, nofun⟩
  exact run_invariant (I := fun s' tr' => cfg.AuthSound (.initial clock) s' tr')
    (fun _ _ _ _ _ h hs => h.step hpos hs) hstart hr

end JwksConfig

/-- What an accepted bearer token rests on. -/
structure Vouched (cfg : JwksConfig) (tr : List AuthEvent) (creds : Credentials) (jose : Jose)
    (principal : Principal) : Prop where
  scheme : asciiLower creds.scheme = text "bearer"
  configured : cfg.settings.hasEntraConfig = true
  token : ∃ header kid key cache now,
    jose.unverifiedHeader creds.credentials = .ok header ∧
      header.dictGet (text "kid") = .ok (some kid) ∧
      (∃ id, .keys (.refreshed id cache) ∈ tr) ∧ cfg.Fetched cache ∧
      cache.lookup kid = .ok (some key) ∧
      cache.fetchedAt ≤ now ∧ now - cache.fetchedAt < JwksCache.ttlSeconds ∧
      jose.decode creds.credentials key (decodeOptions (expectedAudience cfg.settings)
        (cache.resolvedIssuer cfg.settings)) = .ok principal.claims
  tenant : principal.claims.dictGet (text "tid") = .ok (some (.str cfg.settings.entraTenantId))
  subject : NamesSubject cfg.printing principal.claims principal.subject

/-- Claims that name a tenant are not those of the anonymous principal. -/
theorem Vouched.ne_anonymous {cfg : JwksConfig} {tr : List AuthEvent} {creds : Credentials}
    {jose : Jose} {principal : Principal} (h : Vouched cfg tr creds jose principal) :
    principal ≠ anonymous := by
  rintro rfl
  have htenant := h.tenant
  cases htenant

theorem mem_keyEvents {tr : List AuthEvent} {e : JwksEvent BearerRequest} :
    e ∈ keyEvents tr ↔ .keys e ∈ tr := by
  rw [keyEvents, List.mem_filterMap]
  constructor
  · rintro ⟨a, ha, he⟩
    cases a with
    | keys e' =>
        cases he
        exact ha
    | outcome creds jose result => cases he
  · intro h
    exact ⟨_, h, rfl⟩

theorem hasEntraConfig_tenant {settings : AuthSettings} (h : settings.hasEntraConfig = true) :
    settings.entraTenantId ≠ [] := by
  simp only [AuthSettings.hasEntraConfig, Bool.and_eq_true, decide_eq_true_eq] at h
  exact h.1

/-- Every principal is the anonymous one of a development set-up that was sent no credentials,
or it rests on a verified token and is not the anonymous one. -/
theorem getCurrentUser_sound (pr : Json.Printing) (settings : AuthSettings) {clock : ℚ}
    {ls : List AuthLabel} {s : JwksState BearerRequest} {tr : List AuthEvent}
    (hr : (JwksConfig.ofSettings pr settings).authenticate.run (.initial clock) ls =
      some (s, tr)) :
    ∀ creds jose principal, .outcome creds jose (.ok principal) ∈ tr →
      (creds = none ∧ settings.appEnv = .development ∧ settings.hasEntraConfig = false ∧
        principal = anonymous) ∨
      ∃ c, creds = some c ∧ Vouched (.ofSettings pr settings) tr c jose principal ∧
        principal ≠ anonymous := by
  intro creds jose principal hmem
  have hpos : 0 < (JwksConfig.ofSettings pr settings).ttl := by
    change (0 : ℚ) < 3600
    norm_num
  have hsound := JwksConfig.authenticate_sound hpos hr
  obtain ⟨flying, hkeys⟩ := hsound.keys
  rcases hsound.decided creds jose _ hmem with ⟨failure, hfail⟩ | ⟨principal', hasked, heq⟩ |
    ⟨id, a, ha, rfl, rfl, hresult⟩
  · cases hfail
  · cases heq
    exact .inl (admit_principal hasked)
  · rw [concludeToken] at hresult
    obtain ⟨key, hkey, hcheck⟩ := bind_eq_ok_iff.mp hresult.symm
    obtain ⟨⟨j, hstored⟩, hfetched, hlookup, hstamp, hyoung⟩ :=
      JwksConfig.young_of_answered hkeys.grounded ha (mapError_eq_ok_iff.mp hkey)
    obtain ⟨hscheme, hconf, header, hheader, hkid⟩ := hkeys.answers id a ha
    obtain ⟨hdecode, htenant, hsubject⟩ := checkToken_ok (hasEntraConfig_tenant hconf) hcheck
    have hvouched : Vouched (.ofSettings pr settings) tr a.kept.creds a.kept.jose principal :=
      ⟨hscheme, hconf, ⟨header, a.kid, key, a.cache, a.now, hheader, hkid,
        ⟨j, mem_keyEvents.mp hstored⟩, hfetched, hlookup, hstamp, hyoung, hdecode⟩,
        htenant, hsubject⟩
    exact .inr ⟨_, rfl, hvouched, hvouched.ne_anonymous⟩

/-- A library that accepts every token of the kid `k1`. -/
def Jose.sample : Jose where
  unverifiedHeader := fun _ => .ok (.obj [(text "kid", .str (text "k1"))])
  decode := fun _ _ _ => .ok (.obj [(text "tid", .str (text "tenant")),
    (text "oid", .str (text "user"))])

def AuthLabel.sampleRun : List AuthLabel :=
  [.request none .sample 4 4, .request (some ⟨text "Bearer", text "token"⟩) .sample 5 5,
    .keys (.discovered 0 (.ok (.obj [(text "jwks_uri", .str (text "uri"))]))),
    .keys (.keySetFetched 0 (.ok (.obj [(text "keys",
      .arr [.obj [(text "kid", .str (text "k1"))]])]))),
    .keys (.clientClosed 0 (.ok ()) 7)]

theorem getCurrentUser_sound_sample :
    ∃ s tr, (JwksConfig.ofSettings ⟨1000, 1000, fun _ => true⟩
        { JwksConfig.sample.settings with appEnv := .production }).authenticate.run
          (.initial 4) AuthLabel.sampleRun = some (s, tr) ∧ tr.length = 5 ∧
      ∀ creds jose principal, .outcome creds jose (.ok principal) ∈ tr → principal ≠ anonymous := by
  have hlength : ((JwksConfig.ofSettings ⟨1000, 1000, fun _ => true⟩
      { JwksConfig.sample.settings with appEnv := .production }).authenticate.run
        (.initial 4) AuthLabel.sampleRun).map (fun r => r.2.length) = some 5 := by
    decide +kernel
  obtain ⟨⟨s, tr⟩, hr, hfive⟩ := Option.map_eq_some_iff.mp hlength
  refine ⟨s, tr, hr, hfive, fun creds jose principal hmem => ?_⟩
  rcases getCurrentUser_sound _ _ hr creds jose principal hmem with ⟨-, hdev, -⟩ | ⟨c, -, -, hne⟩
  · cases hdev
  · exact hne

end NexusBackend
