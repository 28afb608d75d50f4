import NexusBackend.Library.JsonText

/-!
Bearer tokens: `get_current_user`, the validation of a token and the cache of signing keys.

One token is validated without interruption, so the lock of the cache is always free. The
token library and the endpoints of the identity provider are parameters: each returns what
the library returns or raises. Log records are left out.
-/
namespace NexusBackend

open Python

inductive AppEnv
  | development
  | staging
  | production
deriving DecidableEq

/-- The settings that the check reads. -/
structure AuthSettings where
  appEnv : AppEnv := .development
  entraTenantId : Text := []
  entraClientId : Text := []
  entraAudience : Text := []
  entraIssuer : Text := []
deriving DecidableEq

def AuthSettings.resolvedEntraIssuer (settings : AuthSettings) : Text :=
  if settings.entraIssuer ≠ [] then settings.entraIssuer
  else if settings.entraTenantId ≠ [] then
    text "https://login.microsoftonline.com/" ++ settings.entraTenantId ++ text "/v2.0"
  else []

def AuthSettings.hasEntraConfig (settings : AuthSettings) : Bool :=
  settings.entraTenantId ≠ [] && settings.entraClientId ≠ []

structure Principal where
  subject : Text
  tenant : Text
  roles : List Json := []
  scopes : List Json := []
  rawToken : Text := []
  claims : Json := .obj []

/-- What the `Authorization` header was split into. -/
structure Credentials where
  scheme : Text
  credentials : Text

/-- An `HTTPException`, with or without the bearer challenge, or any other exception. -/
inductive AuthFailure
  | http (status : Nat) (detail : Text) (challenge : Bool)
  | raised (e : Exn)

/-- `_401`. -/
def unauthorized (detail : Text) : AuthFailure := .http 401 detail true

def jwtError : ExnKind := .named (text "JWTError")

/-- What the outside answers while one token is validated: the readings of the monotonic
clock before and after the lock is taken and after a refresh, the two documents of the
identity provider, and the token library. -/
structure AuthWorld where
  beforeLock : ℚ
  afterLock : ℚ
  refreshedAt : ℚ
  discovery : Text → Except Exn Json
  keySet : Json → Except Exn Json
  unverifiedHeader : Text → Except Exn Json
  decode : (token : Text) → (key : Json) → (audience : Text) → (issuer : Json) →
    Except Exn Json

/-! ### The cache of signing keys -/

structure JwksCache where
  keys : List (Json.HashKey × Json) := []
  issuer : Json := .str []
  fetchedAt : ℚ := 0

namespace JwksCache

def ttlSeconds : ℚ := 3600

def resolvedIssuer (settings : AuthSettings) (cache : JwksCache) : Json :=
  if cache.issuer.truthy then cache.issuer else .str settings.resolvedEntraIssuer

def isFresh (cache : JwksCache) (now : ℚ) : Bool :=
  !cache.keys.isEmpty && decide (now - cache.fetchedAt < ttlSeconds)

/-- `self._keys[kid]`, where it is there. -/
def lookup (cache : JwksCache) (kid : Json) : Except Exn (Option Json) :=
  (fun id => (cache.keys.find? fun p => p.1.same id).map Prod.snd) <$> kid.hashKey

/-- One key of the document, under its id. The last key that has an id is found first. -/
def addKey (keys : List (Json.HashKey × Json)) (key : Json) :
    Except Exn (List (Json.HashKey × Json)) := do
  match (← key.dictGet (text "kid")).filter Json.truthy with
  | none => return keys
  | some kid => return (← kid.hashKey, key) :: keys

/-- `_refresh`. -/
def refresh (settings : AuthSettings) (world : AuthWorld) : Except Exn JwksCache := do
  if settings.entraTenantId = [] then
    raise .runtimeError (text "ENTRA_TENANT_ID not configured")
  else
    let oidc ← world.discovery (text "https://login.microsoftonline.com/" ++
      settings.entraTenantId ++ text "/v2.0/.well-known/openid-configuration")
    match (← oidc.dictGet (text "jwks_uri")).filter Json.truthy with
    | none => raise .runtimeError (text "OIDC discovery missing jwks_uri")
    | some uri =>
        let jwks ← world.keySet uri
        let items ← ((← jwks.dictGet (text "keys")).getD (.arr [])).iterate
        return {
          keys := ← items.foldlM addKey []
          issuer := Json.orElse (← oidc.dictGet (text "issuer"))
            (.str settings.resolvedEntraIssuer)
          fetchedAt := world.refreshedAt }

/-- `get_key`: a key the cache holds while it is fresh, else one refresh. -/
def getKey (pr : Json.Printing) (settings : AuthSettings) (world : AuthWorld)
    (cache : JwksCache) (kid : Json) : Except Exn Json × JwksCache :=
  match cache.lookup kid with
  | .error e => (.error e, cache)
  | .ok found =>
      match (found.filter fun _ => cache.isFresh world.beforeLock).or
          (found.filter fun _ => cache.isFresh world.afterLock) with
      | some key => (.ok key, cache)
      | none =>
          match refresh settings world with
          | .error e => (.error e, cache)
          | .ok cache =>
              (do
                match ← cache.lookup kid with
                | some key => return key
                | none =>
                    raise .keyError (text "kid " ++ kid.repr pr.printable ++
                      text " not present in Entra JWKS"), cache)

end JwksCache

/-! ### One token -/

/-- How `_validate_token` answers what `get_key` raises; `str` of a `KeyError` is the
`repr` of its message. -/
def keyFailure (pr : Json.Printing) (e : Exn) : AuthFailure :=
  if e.isInstance [.keyError] then unauthorized (reprText pr.printable e.message)
  else if e.isInstance [.named (text "HTTPError"), .runtimeError] then
    unauthorized (text "JWKS lookup failed: " ++ e.message)
  else .raised e

/-- How it answers what the token library raises. -/
def tokenFailure (what : Text) (e : Exn) : AuthFailure :=
  if e.isInstance [jwtError] then unauthorized (what ++ text ": " ++ e.message) else .raised e

def expectedAudience (settings : AuthSettings) : Text :=
  if settings.entraAudience ≠ [] then settings.entraAudience else settings.entraClientId

/-- The `tid` of the claims is the tenant of the settings. -/
def tenantMatches (settings : AuthSettings) (claims : Json) : Except Exn Bool :=
  (fun tid => match tid with
    | some (.str tid) => tid = settings.entraTenantId
    | _ => false) <$> claims.dictGet (text "tid")

/-- The scopes of the claims: the words of a text, or the items of anything else. -/
def readScopes (claims : Json) : Except Exn (List Json) := do
  match (← claims.dictGet (text "scp")).getD (.str []) with
  | .str s => return (words s).map Json.str
  | v => (Json.orElse (some v) (.arr [])).iterate

/-- The principal of validated claims; none where they name no subject. -/
def readPrincipal (pr : Json.Printing) (token : Text) (claims : Json) :
    Except Exn (Option Principal) := do
  let oid := (← claims.dictGet (text "oid")).filter Json.truthy
  match oid.or ((← claims.dictGet (text "sub")).filter Json.truthy) with
  | none => return none
  | some subject =>
      let roles := Json.orElse (← claims.dictGet (text "roles")) (.arr [])
      let scopes ← readScopes claims
      return some {
        subject := ← subject.toStr pr
        tenant := ← ((← claims.dictGet (text "tid")).getD (.str [])).toStr pr
        roles := ← roles.iterate
        scopes := scopes
        rawToken := token
        claims := claims }

/-- From the decoded claims to the principal. -/
def checkClaims (pr : Json.Printing) (settings : AuthSettings) (token : Text) (claims : Json) :
    Except AuthFailure Principal := do
  let tenantOk ← (tenantMatches settings claims).mapError .raised
  if settings.entraTenantId ≠ [] ∧ tenantOk = false then
    .error (unauthorized (text "Token tenant ('tid') does not match this deployment"))
  else
    match ← (readPrincipal pr token claims).mapError .raised with
    | none => .error (unauthorized (text "JWT missing both 'oid' and 'sub'"))
    | some principal => return principal

/-- From the signing key to the principal. -/
def checkToken (pr : Json.Printing) (settings : AuthSettings) (world : AuthWorld)
    (cache : JwksCache) (token : Text) (key : Json) : Except AuthFailure Principal := do
  if expectedAudience settings = [] ∨ (cache.resolvedIssuer settings).truthy = false then
    .error (.http 500 (text "Entra audience/issuer not configured on the server") false)
  else
    let claims ← (world.decode token key (expectedAudience settings)
      (cache.resolvedIssuer settings)).mapError (tokenFailure (text "JWT validation failed"))
    checkClaims pr settings token claims

/-- The key id of the unverified header. -/
def readKeyId (world : AuthWorld) (token : Text) : Except AuthFailure Json := do
  let header ← (world.unverifiedHeader token).mapError
    (tokenFailure (text "Malformed JWT header"))
  match (← (header.dictGet (text "kid")).mapError .raised).filter Json.truthy with
  | none => .error (unauthorized (text "JWT header missing 'kid'"))
  | some kid => return kid

/-- `_validate_token`. -/
def validateToken (pr : Json.Printing) (settings : AuthSettings) (world : AuthWorld)
    (cache : JwksCache) (token : Text) : Except AuthFailure Principal × JwksCache :=
  match readKeyId world token with
  | .error failure => (.error failure, cache)
  | .ok kid =>
      let (key, cache) := cache.getKey pr settings world kid
      (key.mapError (keyFailure pr) >>= checkToken pr settings world cache token, cache)

/-- `get_current_user`. -/
def getCurrentUser (pr : Json.Printing) (settings : AuthSettings) (world : AuthWorld)
    (cache : JwksCache) (creds : Option Credentials) :
    Except AuthFailure Principal × JwksCache :=
  match creds with
  | none =>
      if settings.appEnv = .development ∧ settings.hasEntraConfig = false then
        (.ok { subject := text "anonymous", tenant := text "dev" }, cache)
      else (.error (unauthorized (text "Missing bearer token")), cache)
  | some creds =>
      if asciiLower creds.scheme ≠ text "bearer" then
        (.error (unauthorized
          (text "Unsupported auth scheme: " ++ reprText pr.printable creds.scheme)), cache)
      else if settings.hasEntraConfig = false then
        (.error (.http 500 (text "Entra not configured but a bearer token was presented") false),
          cache)
      else validateToken pr settings world cache creds.credentials

/-! ### What stands behind a principal -/

theorem readPrincipal_token {pr : Json.Printing} {token : Text} {claims : Json}
    {principal : Principal} (h : readPrincipal pr token claims = .ok (some principal)) :
    principal.claims = claims ∧ principal.rawToken = token := by
  simp only [readPrincipal] at h
  obtain ⟨oid, -, h⟩ := bind_eq_ok_iff.mp h
  obtain ⟨sub, -, h⟩ := bind_eq_ok_iff.mp h
  split at h
  · cases h
  · obtain ⟨roles, -, h⟩ := bind_eq_ok_iff.mp h
    obtain ⟨scopes, -, h⟩ := bind_eq_ok_iff.mp h
    obtain ⟨subject, -, h⟩ := bind_eq_ok_iff.mp h
    obtain ⟨tid, -, h⟩ := bind_eq_ok_iff.mp h
    obtain ⟨tenant, -, h⟩ := bind_eq_ok_iff.mp h
    obtain ⟨roles, -, h⟩ := bind_eq_ok_iff.mp h
    cases h
    exact ⟨rfl, rfl⟩

/-- The token library verified the token for this audience and an issuer, and the tenant
of its claims is the tenant of the settings. -/
structure Verified (settings : AuthSettings) (world : AuthWorld) (token : Text)
    (principal : Principal) : Prop where
  decoded : ∃ key issuer, issuer.truthy = true ∧
    world.decode token key (expectedAudience settings) issuer = .ok principal.claims
  tenant : settings.entraTenantId ≠ [] → tenantMatches settings principal.claims = .ok true
  token : principal.rawToken = token

theorem checkToken_verified {pr : Json.Printing} {settings : AuthSettings} {world : AuthWorld}
    {cache : JwksCache} {token : Text} {key : Json} {principal : Principal}
    (h : checkToken pr settings world cache token key = .ok principal) :
    Verified settings world token principal := by
  simp only [checkToken] at h
  split at h
  · cases h
  · rename_i hconf
    obtain ⟨claims, hdecode, h⟩ := bind_eq_ok_iff.mp h
    simp only [checkClaims] at h
    obtain ⟨tenantOk, htenant, h⟩ := bind_eq_ok_iff.mp h
    split at h
    · cases h
    · rename_i hmatch
      obtain ⟨read, hread, h⟩ := bind_eq_ok_iff.mp h
      split at h
      · cases h
      · cases h
        obtain ⟨rfl, rfl⟩ := readPrincipal_token (mapError_eq_ok_iff.mp hread)
        refine ⟨⟨key, _, ?_, mapError_eq_ok_iff.mp hdecode⟩, fun hid => ?_, rfl⟩
        · simpa using fun hissuer => hconf (.inr hissuer)
        · rw [mapError_eq_ok_iff.mp htenant]
          exact congrArg _ (Bool.eq_true_of_not_eq_false fun hno => hmatch ⟨hid, hno⟩)

/-- A principal is the anonymous one of a development set-up without credentials, or that
of a verified bearer token. -/
theorem getCurrentUser_verified {pr : Json.Printing} {settings : AuthSettings}
    {world : AuthWorld} {cache : JwksCache} {creds : Option Credentials} {principal : Principal}
    (h : (getCurrentUser pr settings world cache creds).1 = .ok principal) :
    (creds = none ∧ settings.appEnv = .development ∧ settings.hasEntraConfig = false) ∨
      ∃ c, creds = some c ∧ asciiLower c.scheme = text "bearer" ∧
        settings.hasEntraConfig = true ∧ Verified settings world c.credentials principal := by
  simp only [getCurrentUser] at h
  cases creds with
  | none =>
      dsimp only at h
      split at h
      · rename_i hdev
        exact .inl ⟨rfl, hdev⟩
      · cases h
  | some c =>
      dsimp only at h
      split at h
      · cases h
      · rename_i hscheme
        split at h
        · cases h
        · rename_i hconf
          refine .inr ⟨c, rfl, not_not.mp hscheme, by simpa using hconf, ?_⟩
          simp only [validateToken] at h
          split at h
          · cases h
          · obtain ⟨key, -, h⟩ := bind_eq_ok_iff.mp h
            exact checkToken_verified h

end NexusBackend
