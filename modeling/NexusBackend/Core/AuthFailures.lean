import NexusBackend.Core.JwksRefresh

/-!
How `get_current_user` ends, by the header of the token, the documents of the identity
provider and the claims: where it returns a principal or answers 401 or 500, and where
another exception goes past its handlers.
-/
namespace NexusBackend

open Python

/-! ### Shapes of what is read -/

/-- A value that a dict can be searched for. -/
def IsHashable : Json → Prop
  | .arr _ | .obj _ => False
  | _ => True

/-- A value that a loop can run over. -/
def IsIterable : Json → Prop
  | .arr _ | .obj _ | .str _ => True
  | _ => False

/-- `d.get(key)`, where it is true. -/
def memberOf (pairs : List (Text × Json)) (key : Text) : Option Json :=
  (Json.get? pairs key).filter Json.truthy

theorem hashKey_ok {v : Json} (h : IsHashable v) : ∃ id, v.hashKey = .ok id := by
  cases v with
  | arr items => exact h.elim
  | obj pairs => exact h.elim
  | _ => exact ⟨_, rfl⟩

theorem hashKey_error {v : Json} (h : ¬ IsHashable v) : v.hashKey = raise .typeError := by
  cases v with
  | arr items => rfl
  | obj pairs => rfl
  | _ => exact absurd trivial h

theorem iterate_ok {v : Json} (h : IsIterable v) : ∃ items, v.iterate = .ok items := by
  cases v with
  | arr items => exact ⟨_, rfl⟩
  | obj pairs => exact ⟨_, rfl⟩
  | str s => exact ⟨_, rfl⟩
  | _ => exact h.elim

theorem iterate_error {v : Json} (h : ¬ IsIterable v) : v.iterate = raise .typeError := by
  cases v with
  | arr items => exact absurd trivial h
  | obj pairs => exact absurd trivial h
  | str s => exact absurd trivial h
  | _ => rfl

theorem iterate_error_kind {v : Json} {e : Exn} (h : v.iterate = .error e) :
    e = ⟨.typeError, []⟩ := by
  by_cases hv : IsIterable v
  · obtain ⟨items, hitems⟩ := iterate_ok hv
    rw [hitems] at h
    cases h
  · rw [iterate_error hv] at h
    exact (Except.error.inj h).symm

/-- `v or []` can always be run over where `v`, if it is true, can. -/
theorem iterate_orElse_iff (v : Option Json) :
    (∃ items, (Json.orElse v (.arr [])).iterate = .ok items) ↔
      ∀ w, v.filter Json.truthy = some w → IsIterable w := by
  rw [Json.orElse]
  cases v.filter Json.truthy with
  | none => exact ⟨fun _ => nofun, fun _ => ⟨[], rfl⟩⟩
  | some w =>
      refine ⟨fun ⟨items, hitems⟩ w' heq => ?_, fun h => iterate_ok (h w rfl)⟩
      obtain rfl := Option.some.inj heq
      by_contra hno
      rw [Option.getD_some, iterate_error hno] at hitems
      cases hitems

/-! ### Answers and failures -/

/-- The computation returns, or fails with status 401 or 500. -/
def Settled {α : Type} : Except AuthFailure α → Prop
  | .ok _ => True
  | .error (.http status _ _) => status = 401 ∨ status = 500
  | .error (.raised _) => False

instance {α : Type} : (x : Except AuthFailure α) → Decidable (Settled x)
  | .ok _ => inferInstanceAs (Decidable True)
  | .error (.http status _ _) => inferInstanceAs (Decidable (status = 401 ∨ status = 500))
  | .error (.raised _) => inferInstanceAs (Decidable False)

/-- The classes that `_validate_token` answers around `get_key`. -/
def lookupErrors : List ExnKind := [.keyError, .named (text "HTTPError"), .runtimeError]

section
variable {α β : Type}

theorem settled_error_iff {failure : AuthFailure} :
    Settled (.error failure : Except AuthFailure α) ↔
      Settled (.error failure : Except AuthFailure β) := by
  cases failure with
  | http status detail challenge => exact Iff.rfl
  | raised e => exact Iff.rfl

theorem settled_bind_iff {x : Except AuthFailure α} {f : α → Except AuthFailure β} :
    Settled (x >>= f) ↔ Settled x ∧ ∀ a, x = .ok a → Settled (f a) := by
  cases x with
  | ok a => exact ⟨fun h => ⟨trivial, fun _ heq => Except.ok.inj heq ▸ h⟩, fun h => h.2 a rfl⟩
  | error failure =>
      change Settled (.error failure) ↔ _
      rw [settled_error_iff]
      exact ⟨fun h => ⟨h, nofun⟩, fun h => h.1⟩

theorem settled_raised_iff {x : Except Exn α} :
    Settled (x.mapError .raised) ↔ ∃ a, x = .ok a := by
  cases x with
  | ok a => exact ⟨fun _ => ⟨a, rfl⟩, fun _ => trivial⟩
  | error e => exact ⟨False.elim, nofun⟩

theorem settled_tokenFailure_iff {x : Except Exn α} (what : Text) :
    Settled (x.mapError (tokenFailure what)) ↔ ¬ Escapes [jwtError] x := by
  cases x with
  | ok a => exact iff_of_true trivial (not_escapes_ok _ a)
  | error e =>
      rw [escapes_error_iff]
      change Settled (.error (tokenFailure what e)) ↔ _
      rw [tokenFailure]
      cases e.isInstance [jwtError] with
      | true => exact iff_of_true (.inl rfl) nofun
      | false => exact iff_of_false id (not_not.mpr rfl)

theorem settled_keyFailure_iff {x : Except Exn α} (pr : Json.Printing) :
    Settled (x.mapError (keyFailure pr)) ↔ ¬ Escapes lookupErrors x := by
  cases x with
  | ok a => exact iff_of_true trivial (not_escapes_ok _ a)
  | error e =>
      have hsplit : e.isInstance lookupErrors = (e.isInstance [.keyError] ||
          e.isInstance [.named (text "HTTPError"), .runtimeError]) := by
        simp only [Exn.isInstance, lookupErrors, List.any_cons, List.any_nil, Bool.or_false]
      rw [escapes_error_iff, hsplit]
      change Settled (.error (keyFailure pr e)) ↔ _
      rw [keyFailure]
      cases e.isInstance [.keyError] with
      | true => exact iff_of_true (.inl rfl) nofun
      | false =>
          cases e.isInstance [.named (text "HTTPError"), .runtimeError] with
          | true => exact iff_of_true (.inl rfl) nofun
          | false => exact iff_of_false id (not_not.mpr rfl)

end

/-! ### The header and the key set -/

/-- An object whose key id, where it has one, can be looked up. -/
def NamesKey (v : Json) : Prop :=
  ∃ pairs, v = .obj pairs ∧ ∀ kid, memberOf pairs (text "kid") = some kid → IsHashable kid

/-- The id that a key of the document stands under. -/
def keyId? : Json → Option Json.HashKey
  | .obj pairs => (memberOf pairs (text "kid")).bind fun kid => kid.hashKey.toOption
  | _ => none

/-- The keys of the document under their ids, the last key first. -/
def documentKeys (items : List Json) : List (Json.HashKey × Json) :=
  (items.filterMap fun key => (keyId? key).map fun id => (id, key)).reverse

theorem documentKeys_cons (key : Json) (items : List Json) :
    documentKeys (key :: items) =
      documentKeys items ++ ((keyId? key).map fun id => (id, key)).toList := by
  rw [documentKeys, List.filterMap_cons]
  cases keyId? key with
  | none => exact (List.append_nil _).symm
  | some id => exact List.reverse_cons

theorem addKey_none {pairs : List (Text × Json)} (h : memberOf pairs (text "kid") = none)
    (keys : List (Json.HashKey × Json)) : JwksCache.addKey keys (.obj pairs) = .ok keys := by
  rw [memberOf] at h
  rw [JwksCache.addKey, Json.dictGet, ok_bind, h]
  rfl

theorem addKey_some {pairs : List (Text × Json)} {kid : Json}
    (h : memberOf pairs (text "kid") = some kid) (keys : List (Json.HashKey × Json)) :
    JwksCache.addKey keys (.obj pairs) = (fun id => (id, .obj pairs) :: keys) <$> kid.hashKey := by
  rw [memberOf] at h
  rw [JwksCache.addKey, Json.dictGet, ok_bind, h]
  rfl

theorem addKey_of_namesKey {key : Json} (h : NamesKey key) (keys : List (Json.HashKey × Json)) :
    JwksCache.addKey keys key =
      .ok (((keyId? key).map fun id => (id, key)).toList ++ keys) := by
  obtain ⟨pairs, rfl, hkid⟩ := h
  rw [keyId?]
  cases hmember : memberOf pairs (text "kid") with
  | none => exact addKey_none hmember keys
  | some kid =>
      obtain ⟨id, hid⟩ := hashKey_ok (hkid kid hmember)
      rw [addKey_some hmember, Option.bind_some, hid]
      rfl

theorem addKey_escapes {key : Json} (h : ¬ NamesKey key) (keys : List (Json.HashKey × Json)) :
    Escapes lookupErrors (JwksCache.addKey keys key) := by
  cases key with
  | obj pairs =>
      obtain ⟨kid, hmember, hkid⟩ :
          ∃ kid, memberOf pairs (text "kid") = some kid ∧ ¬ IsHashable kid := by
        by_contra hno
        push Not at hno
        exact h ⟨pairs, rfl, hno⟩
      rw [addKey_some hmember, hashKey_error hkid]
      exact ⟨_, rfl, by decide⟩
  | _ => exact ⟨_, rfl, by decide⟩

theorem foldlM_addKey_iff (items : List Json) (keys : List (Json.HashKey × Json)) :
    ¬ Escapes lookupErrors (items.foldlM JwksCache.addKey keys) ↔
      ∀ key ∈ items, NamesKey key := by
  induction items generalizing keys with
  | nil => exact iff_of_true (not_escapes_ok _ _) nofun
  | cons key items ih =>
      rw [List.foldlM_cons, List.forall_mem_cons, not_escapes_bind_iff]
      by_cases hkey : NamesKey key
      · rw [addKey_of_namesKey hkey]
        exact ⟨fun h => ⟨hkey, (ih _).mp (h.1 _ rfl)⟩, fun h => ends_ok ((ih _).mpr h.2)⟩
      · refine iff_of_false (fun h => ?_) fun h => hkey h.1
        obtain ⟨e, heq, he⟩ := addKey_escapes hkey keys
        rw [h.2 e heq] at he
        cases he

theorem foldlM_addKey {items : List Json} (h : ∀ key ∈ items, NamesKey key)
    (keys : List (Json.HashKey × Json)) :
    items.foldlM JwksCache.addKey keys = .ok (documentKeys items ++ keys) := by
  induction items generalizing keys with
  | nil => rfl
  | cons key items ih =>
      obtain ⟨hkey, hitems⟩ := List.forall_mem_cons.mp h
      rw [List.foldlM_cons, addKey_of_namesKey hkey, ok_bind, ih hitems, documentKeys_cons,
        List.append_assoc]

/-! ### The documents of the identity provider -/

def IsLookupError (e : Exn) : Prop := e.isInstance lookupErrors = true

def KeySetReads (jwks : Json) : Prop :=
  ∃ pairs, jwks = .obj pairs ∧
    ∃ items, ((Json.get? pairs (text "keys")).getD (.arr [])).iterate = .ok items ∧
      ∀ key ∈ items, NamesKey key

def DiscoveryReads (world : AuthWorld) (oidc : Json) : Prop :=
  ∃ pairs, oidc = .obj pairs ∧
    ∀ uri, memberOf pairs (text "jwks_uri") = some uri →
      Ends KeySetReads IsLookupError (world.keySet uri)

def discoveryAddress (settings : AuthSettings) : Text :=
  text "https://login.microsoftonline.com/" ++ settings.entraTenantId ++
    text "/v2.0/.well-known/openid-configuration"

/-- Both documents come as objects of the expected shape, or not at all, with an error that
is answered. -/
def DocumentsRead (settings : AuthSettings) (world : AuthWorld) : Prop :=
  Ends (DiscoveryReads world) IsLookupError (world.discovery (discoveryAddress settings))

namespace JwksCache

theorem discoveryUrl_eq {settings : AuthSettings} (h : settings.entraTenantId ≠ []) :
    discoveryUrl settings = .ok (discoveryAddress settings) := if_neg h

theorem ofDocuments_obj (settings : AuthSettings) (oidc jwks : List (Text × Json)) (now : ℚ) :
    ofDocuments settings (.obj oidc) (.obj jwks) now =
      (do
        let items ← ((Json.get? jwks (text "keys")).getD (.arr [])).iterate
        let keys ← items.foldlM addKey []
        return {
          keys := keys
          issuer := Json.orElse (Json.get? oidc (text "issuer"))
            (.str settings.resolvedEntraIssuer)
          fetchedAt := now }) := rfl

theorem ofDocuments_iff (settings : AuthSettings) (oidc : List (Text × Json)) (jwks : Json)
    (now : ℚ) :
    ¬ Escapes lookupErrors (ofDocuments settings (.obj oidc) jwks now) ↔ KeySetReads jwks := by
  cases jwks with
  | obj pairs =>
      rw [ofDocuments_obj, not_escapes_bind_iff]
      constructor
      · intro h
        refine ⟨pairs, rfl, ?_⟩
        cases hitems : ((Json.get? pairs (text "keys")).getD (.arr [])).iterate with
        | error e =>
            have he := h.2 e hitems
            obtain rfl := iterate_error_kind hitems
            cases he
        | ok items =>
            refine ⟨items, rfl, (foldlM_addKey_iff items []).mp fun hesc => ?_⟩
            exact h.1 items hitems ((escapes_bind_iff _ _ _).mpr (.inl hesc))
      · rintro ⟨pairs', heq, items, hitems, hkeys⟩
        cases heq
        rw [hitems]
        refine ends_ok ?_
        rw [foldlM_addKey hkeys, ok_bind]
        exact not_escapes_ok _ _
  | _ =>
      refine iff_of_false (not_not.mpr ⟨⟨.attributeError, []⟩, rfl, by decide⟩) ?_
      rintro ⟨pairs, heq, -⟩
      cases heq

theorem jwksUri_none {pairs : List (Text × Json)}
    (h : memberOf pairs (text "jwks_uri") = none) : jwksUri (.obj pairs) =
      raise .runtimeError (text "OIDC discovery missing jwks_uri") := by
  rw [memberOf] at h
  rw [jwksUri, Json.dictGet, ok_bind, h]

theorem jwksUri_some {pairs : List (Text × Json)} {uri : Json}
    (h : memberOf pairs (text "jwks_uri") = some uri) : jwksUri (.obj pairs) = .ok uri := by
  rw [memberOf] at h
  rw [jwksUri, Json.dictGet, ok_bind, h]
  rfl

theorem refresh_escapes_iff {settings : AuthSettings} {world : AuthWorld}
    (htenant : settings.entraTenantId ≠ []) :
    ¬ Escapes lookupErrors (refresh settings world) ↔ DocumentsRead settings world := by
  rw [refresh_eq, discoveryUrl_eq htenant, ok_bind, not_escapes_bind_iff]
  refine ends_congr fun oidc => ?_
  cases oidc with
  | obj pairs =>
      cases hmember : memberOf pairs (text "jwks_uri") with
      | none =>
          refine iff_of_true ?_ ⟨pairs, rfl, fun uri h => ?_⟩
          · rw [jwksUri_none hmember, not_escapes_bind_iff]
            exact ends_error rfl
          · rw [hmember] at h
            cases h
      | some uri =>
          rw [jwksUri_some hmember, ok_bind, not_escapes_bind_iff,
            ends_congr (ofDocuments_iff settings pairs · _)]
          constructor
          · intro h
            refine ⟨pairs, rfl, fun uri' h' => ?_⟩
            rw [hmember] at h'
            exact Option.some.inj h' ▸ h
          · rintro ⟨pairs', heq, h⟩
            cases heq
            exact h uri hmember
  | _ =>
      refine iff_of_false (not_not.mpr ⟨⟨.attributeError, []⟩, rfl, by decide⟩) ?_
      rintro ⟨pairs, heq, -⟩
      cases heq

/-- What a refresh stores, by the two documents. -/
theorem refresh_eq_ok_iff {settings : AuthSettings} {world : AuthWorld} {cache : JwksCache}
    (htenant : settings.entraTenantId ≠ []) :
    refresh settings world = .ok cache ↔
      ∃ oidc uri jwks items, world.discovery (discoveryAddress settings) = .ok (.obj oidc) ∧
        memberOf oidc (text "jwks_uri") = some uri ∧ world.keySet uri = .ok (.obj jwks) ∧
        ((Json.get? jwks (text "keys")).getD (.arr [])).iterate = .ok items ∧
        (∀ key ∈ items, NamesKey key) ∧
        cache = {
          keys := documentKeys items
          issuer := Json.orElse (Json.get? oidc (text "issuer"))
            (.str settings.resolvedEntraIssuer)
          fetchedAt := world.refreshedAt } := by
  rw [refresh_eq, discoveryUrl_eq htenant, ok_bind]
  constructor
  · intro h
    obtain ⟨oidc, hoidc, h⟩ := bind_eq_ok_iff.mp h
    obtain ⟨uri, huri, h⟩ := bind_eq_ok_iff.mp h
    obtain ⟨jwks, hjwks, h⟩ := bind_eq_ok_iff.mp h
    cases oidc with
    | obj oidc =>
        have hmember : memberOf oidc (text "jwks_uri") = some uri := by
          cases hmember : memberOf oidc (text "jwks_uri") with
          | none =>
              rw [jwksUri_none hmember] at huri
              cases huri
          | some uri' =>
              rw [jwksUri_some hmember] at huri
              rw [Except.ok.inj huri]
        cases jwks with
        | obj jwks =>
            rw [ofDocuments_obj] at h
            obtain ⟨items, hitems, h⟩ := bind_eq_ok_iff.mp h
            obtain ⟨keys, hkeys, h⟩ := bind_eq_ok_iff.mp h
            have hnames : ∀ key ∈ items, NamesKey key := by
              rw [← foldlM_addKey_iff items [], hkeys]
              exact not_escapes_ok _ _
            rw [foldlM_addKey hnames, List.append_nil] at hkeys
            cases hkeys
            exact ⟨oidc, uri, jwks, items, hoidc, hmember, hjwks, hitems, hnames,
              (Except.ok.inj h).symm⟩
        | _ => cases h
    | _ => cases huri
  · rintro ⟨oidc, uri, jwks, items, hoidc, hmember, hjwks, hitems, hnames, rfl⟩
    rw [hoidc, ok_bind, jwksUri_some hmember, ok_bind, hjwks, ok_bind, ofDocuments_obj, hitems,
      ok_bind, foldlM_addKey hnames, ok_bind, List.append_nil]
    rfl

/-! ### The key of a token -/

/-- The cache has the key, and is fresh when the token is looked at. -/
def Holds (cache : JwksCache) (world : AuthWorld) (kid key : Json) : Prop :=
  cache.lookup kid = .ok (some key) ∧
    (cache.isFresh world.beforeLock = true ∨ cache.isFresh world.afterLock = true)

theorem lookup_ok {kid : Json} (h : IsHashable kid) (cache : JwksCache) :
    ∃ found, cache.lookup kid = .ok found := by
  obtain ⟨id, hid⟩ := hashKey_ok h
  rw [lookup, hid]
  exact ⟨_, rfl⟩

variable {settings : AuthSettings} {world : AuthWorld} {cache : JwksCache} {kid : Json}

theorem getKey_of_holds {key : Json} (pr : Json.Printing) (h : cache.Holds world kid key) :
    cache.getKey pr settings world kid = (.ok key, cache) := by
  obtain ⟨hlookup, hfresh⟩ := h
  rw [getKey, hlookup]
  dsimp only
  have hfound : ((some key).filter fun _ => cache.isFresh world.beforeLock).or
      ((some key).filter fun _ => cache.isFresh world.afterLock) = some key := by
    rw [Option.filter_some, Option.filter_some]
    rcases hfresh with h | h
    · rw [h, if_pos rfl, Option.some_or]
    · rw [h, if_pos rfl]
      cases cache.isFresh world.beforeLock <;> rfl
  rw [hfound]

theorem getKey_of_miss (pr : Json.Printing) (hkid : IsHashable kid)
    (h : ∀ key, ¬ cache.Holds world kid key) :
    cache.getKey pr settings world kid = match refresh settings world with
      | .error e => (.error e, cache)
      | .ok cache => (requireKey pr cache kid, cache) := by
  obtain ⟨found, hlookup⟩ := lookup_ok hkid cache
  have hfound : (found.filter fun _ => cache.isFresh world.beforeLock).or
      (found.filter fun _ => cache.isFresh world.afterLock) = none := by
    cases found with
    | none => rfl
    | some key =>
        have hstale := not_or.mp fun hfresh => h key ⟨hlookup, hfresh⟩
        rw [Option.filter_some, Option.filter_some, if_neg hstale.1, if_neg hstale.2]
        rfl
  rw [getKey, hlookup]
  dsimp only
  rw [hfound]
  rfl

theorem requireKey_eq_ok_iff {pr : Json.Printing} {key : Json} :
    requireKey pr cache kid = .ok key ↔ cache.lookup kid = .ok (some key) := by
  rw [requireKey, bind_eq_ok_iff]
  constructor
  · rintro ⟨found, hlookup, h⟩
    cases found with
    | none => cases h
    | some key' => rw [hlookup, Except.ok.inj h]
  · exact fun h => ⟨_, h, rfl⟩

theorem requireKey_escapes (pr : Json.Printing) (hkid : IsHashable kid) :
    ¬ Escapes lookupErrors (requireKey pr cache kid) := by
  obtain ⟨found, hlookup⟩ := lookup_ok hkid cache
  rw [requireKey, hlookup, ok_bind]
  cases found with
  | none =>
      change ¬ Escapes lookupErrors (.error _)
      rw [escapes_error_iff, Bool.not_eq_false]
      rfl
  | some key => exact not_escapes_ok _ _

theorem getKey_escapes_iff (pr : Json.Printing) (htenant : settings.entraTenantId ≠ [])
    (hkid : IsHashable kid) :
    ¬ Escapes lookupErrors (cache.getKey pr settings world kid).1 ↔
      ((∀ key, ¬ cache.Holds world kid key) → DocumentsRead settings world) := by
  by_cases hholds : ∃ key, cache.Holds world kid key
  · obtain ⟨key, hkey⟩ := hholds
    rw [getKey_of_holds pr hkey]
    exact iff_of_true (not_escapes_ok _ _) fun h => absurd hkey (h key)
  · have hmiss := not_exists.mp hholds
    rw [getKey_of_miss pr hkid hmiss, ← refresh_escapes_iff htenant]
    cases refresh settings world with
    | error e =>
        dsimp only
        rw [escapes_error_iff, escapes_error_iff]
        exact ⟨fun h _ => h, fun h => h hmiss⟩
    | ok cache' => exact iff_of_true (requireKey_escapes pr hkid) fun _ => not_escapes_ok _ _

end JwksCache

/-- The key and the issuer that the token is checked with: those of a cache that holds the
key, else those of the documents. -/
inductive ChecksWith (settings : AuthSettings) (world : AuthWorld) (cache : JwksCache)
    (kid : Json) : Json → Json → Prop
  | held {key : Json} (h : cache.Holds world kid key) :
      ChecksWith settings world cache kid key (cache.resolvedIssuer settings)
  | fetched {oidc jwks : List (Text × Json)} {uri key : Json} {items : List Json}
      (miss : ∀ key, ¬ cache.Holds world kid key)
      (discovery : world.discovery (discoveryAddress settings) = .ok (.obj oidc))
      (address : memberOf oidc (text "jwks_uri") = some uri)
      (keySet : world.keySet uri = .ok (.obj jwks))
      (keys : ((Json.get? jwks (text "keys")).getD (.arr [])).iterate = .ok items)
      (found : { keys := documentKeys items : JwksCache }.lookup kid = .ok (some key)) :
      ChecksWith settings world cache kid key
        (Json.orElse (Json.get? oidc (text "issuer")) (.str settings.resolvedEntraIssuer))

theorem resolvedEntraIssuer_ne_nil {settings : AuthSettings}
    (htenant : settings.entraTenantId ≠ []) : settings.resolvedEntraIssuer ≠ [] := by
  rw [AuthSettings.resolvedEntraIssuer]
  split
  · assumption
  · exact List.cons_ne_nil _ _

theorem truthy_orElse (v : Option Json) {default : Json} (h : default.truthy = true) :
    (Json.orElse v default).truthy = true := by
  rw [Json.orElse]
  cases hv : v.filter Json.truthy with
  | none => exact h
  | some w => exact (Option.filter_eq_some_iff.mp hv).2

theorem resolvedIssuer_of_truthy (settings : AuthSettings) {cache : JwksCache}
    (h : cache.issuer.truthy = true) : cache.resolvedIssuer settings = cache.issuer := if_pos h

/-- With the settings of a tenant, the issuer is never missing. -/
theorem resolvedIssuer_truthy {settings : AuthSettings} (htenant : settings.entraTenantId ≠ [])
    (cache : JwksCache) : (cache.resolvedIssuer settings).truthy = true := by
  rw [JwksCache.resolvedIssuer]
  split
  · assumption
  · exact decide_eq_true (resolvedEntraIssuer_ne_nil htenant)

theorem checksWith_iff {settings : AuthSettings} {world : AuthWorld} {cache : JwksCache}
    {kid key issuer : Json} (pr : Json.Printing) (htenant : settings.entraTenantId ≠ [])
    (hkid : IsHashable kid)
    (hdocs : (∀ key, ¬ cache.Holds world kid key) → DocumentsRead settings world) :
    ChecksWith settings world cache kid key issuer ↔
      (cache.getKey pr settings world kid).1 = .ok key ∧
        (cache.getKey pr settings world kid).2.resolvedIssuer settings = issuer := by
  have hissuer (v : Option Json) :
      (Json.orElse v (.str settings.resolvedEntraIssuer)).truthy = true :=
    truthy_orElse v (decide_eq_true (resolvedEntraIssuer_ne_nil htenant))
  constructor
  · intro h
    cases h with
    | held hholds =>
        rw [JwksCache.getKey_of_holds pr hholds]
        exact ⟨rfl, rfl⟩
    | @fetched oidc jwks uri key items miss discovery address keySet keys found =>
        have hnames : ∀ key ∈ items, NamesKey key := by
          obtain ⟨pairs, heq, huri⟩ := (hdocs miss).1 _ discovery
          cases heq
          obtain ⟨pairs, heq, items', hitems, hnames⟩ := (huri uri address).1 _ keySet
          cases heq
          rw [keys] at hitems
          exact Except.ok.inj hitems ▸ hnames
        rw [JwksCache.getKey_of_miss pr hkid miss, (JwksCache.refresh_eq_ok_iff htenant).mpr
          ⟨oidc, uri, jwks, items, discovery, address, keySet, keys, hnames, rfl⟩]
        exact ⟨JwksCache.requireKey_eq_ok_iff.mpr found,
          resolvedIssuer_of_truthy settings (hissuer _)⟩
  · rintro ⟨hkey, rfl⟩
    by_cases hholds : ∃ key, cache.Holds world kid key
    · obtain ⟨key', hkey'⟩ := hholds
      rw [JwksCache.getKey_of_holds pr hkey'] at hkey ⊢
      cases hkey
      exact .held hkey'
    · have miss := not_exists.mp hholds
      rw [JwksCache.getKey_of_miss pr hkid miss] at hkey ⊢
      cases hrefresh : JwksCache.refresh settings world with
      | error e =>
          rw [hrefresh] at hkey
          cases hkey
      | ok cache' =>
          rw [hrefresh] at hkey
          obtain ⟨oidc, uri, jwks, items, discovery, address, keySet, keys, -, rfl⟩ :=
            (JwksCache.refresh_eq_ok_iff htenant).mp hrefresh
          dsimp only
          rw [resolvedIssuer_of_truthy settings (hissuer _)]
          exact .fetched miss discovery address keySet keys
            (JwksCache.requireKey_eq_ok_iff.mp hkey)

/-! ### The claims -/

/-- `claims.get("oid") or claims.get("sub")`, where it is true. -/
def subjectOf (pairs : List (Text × Json)) : Option Json :=
  (memberOf pairs (text "oid")).or (memberOf pairs (text "sub"))

/-- The claims are an object. Where they name the tenant and a subject, the subject can be
printed, and the roles and the scopes can be run over. -/
def ClaimsRead (pr : Json.Printing) (settings : AuthSettings) (claims : Json) : Prop :=
  ∃ pairs, claims = .obj pairs ∧
    (Json.get? pairs (text "tid") = some (.str settings.entraTenantId) →
      ∀ subject, subjectOf pairs = some subject →
        subject.depth ≤ pr.strLimit ∧
        (∀ roles, memberOf pairs (text "roles") = some roles → IsIterable roles) ∧
        ∀ scp, memberOf pairs (text "scp") = some scp → IsIterable scp)

theorem readScopes_ok_iff (pairs : List (Text × Json)) :
    (∃ scopes, readScopes (.obj pairs) = .ok scopes) ↔
      ∀ scp, memberOf pairs (text "scp") = some scp → IsIterable scp := by
  rw [readScopes, Json.dictGet, memberOf, ok_bind]
  cases Json.get? pairs (text "scp") with
  | none => exact ⟨fun _ => nofun, fun _ => ⟨_, rfl⟩⟩
  | some v =>
      cases v with
      | str s =>
          refine ⟨fun _ scp h => ?_, fun _ => ⟨_, rfl⟩⟩
          rw [← (Option.filter_eq_some_iff.mp h).1 |> Option.some.inj]
          trivial
      | _ => exact iterate_orElse_iff _

theorem readPrincipal_obj (pr : Json.Printing) (token : Text) (pairs : List (Text × Json)) :
    readPrincipal pr token (.obj pairs) =
      match subjectOf pairs with
      | none => .ok none
      | some subject => do
          let scopes ← readScopes (.obj pairs)
          let name ← subject.toStr pr
          let tenant ← ((Json.get? pairs (text "tid")).getD (.str [])).toStr pr
          let roles ← (Json.orElse (Json.get? pairs (text "roles")) (.arr [])).iterate
          return some {
            subject := name
            tenant := tenant
            roles := roles
            scopes := scopes
            rawToken := token
            claims := .obj pairs } := rfl

theorem readPrincipal_ok_iff (pr : Json.Printing) (token : Text) {pairs : List (Text × Json)}
    {tid : Text} (htid : Json.get? pairs (text "tid") = some (.str tid)) :
    (∃ principal, readPrincipal pr token (.obj pairs) = .ok principal) ↔
      ∀ subject, subjectOf pairs = some subject →
        subject.depth ≤ pr.strLimit ∧
        (∀ roles, memberOf pairs (text "roles") = some roles → IsIterable roles) ∧
        ∀ scp, memberOf pairs (text "scp") = some scp → IsIterable scp := by
  rw [readPrincipal_obj]
  cases subjectOf pairs with
  | none => exact ⟨fun _ => nofun, fun _ => ⟨none, rfl⟩⟩
  | some subject =>
      dsimp only
      constructor
      · rintro ⟨principal, h⟩ subject' heq
        obtain rfl := Option.some.inj heq
        obtain ⟨scopes, hscopes, h⟩ := bind_eq_ok_iff.mp h
        obtain ⟨name, hname, h⟩ := bind_eq_ok_iff.mp h
        obtain ⟨tenant, -, h⟩ := bind_eq_ok_iff.mp h
        obtain ⟨roles, hroles, -⟩ := bind_eq_ok_iff.mp h
        exact ⟨(Json.toStr_ok_iff pr subject).mp ⟨name, hname⟩,
          (iterate_orElse_iff _).mp ⟨roles, hroles⟩, (readScopes_ok_iff pairs).mp ⟨scopes, hscopes⟩⟩
      · intro h
        obtain ⟨hdepth, hroles, hscopes⟩ := h subject rfl
        obtain ⟨scopes, hscopes⟩ := (readScopes_ok_iff pairs).mpr hscopes
        obtain ⟨name, hname⟩ := (Json.toStr_ok_iff pr subject).mpr hdepth
        obtain ⟨tenant, htenant⟩ := (Json.toStr_ok_iff pr (.str tid)).mpr (Nat.zero_le _)
        obtain ⟨roles, hroles⟩ := (iterate_orElse_iff _).mpr hroles
        rw [hscopes, hname, htid, Option.getD_some, htenant, hroles]
        exact ⟨_, rfl⟩

theorem tenantMatches_obj (settings : AuthSettings) (pairs : List (Text × Json)) :
    ∃ ok, tenantMatches settings (.obj pairs) = .ok ok ∧
      (ok = true ↔ Json.get? pairs (text "tid") = some (.str settings.entraTenantId)) := by
  refine ⟨_, rfl, ?_⟩
  dsimp only
  split
  · rename_i tid htid
    rw [htid, decide_eq_true_iff, Option.some.injEq, Json.str.injEq]
  · rename_i hother
    exact iff_of_false Bool.false_ne_true (hother _)

theorem checkClaims_settled_iff (pr : Json.Printing) {settings : AuthSettings} (token : Text)
    (claims : Json) (htenant : settings.entraTenantId ≠ []) :
    Settled (checkClaims pr settings token claims) ↔ ClaimsRead pr settings claims := by
  cases claims with
  | obj pairs =>
      obtain ⟨ok, hok, hmatch⟩ := tenantMatches_obj settings pairs
      rw [checkClaims, hok]
      change Settled (if settings.entraTenantId ≠ [] ∧ ok = false then _ else _) ↔ _
      cases ok with
      | false =>
          rw [if_pos ⟨htenant, rfl⟩]
          refine iff_of_true (.inl rfl) ⟨pairs, rfl, fun htid => ?_⟩
          cases hmatch.mpr htid
      | true =>
          have htid := hmatch.mp rfl
          rw [if_neg fun h => Bool.false_ne_true h.2.symm, settled_bind_iff, settled_raised_iff,
            readPrincipal_ok_iff pr token htid]
          constructor
          · rintro ⟨h, -⟩
            exact ⟨pairs, rfl, fun _ => h⟩
          · rintro ⟨pairs', heq, h⟩
            cases heq
            refine ⟨h htid, fun read _ => ?_⟩
            cases read with
            | none => exact .inl rfl
            | some principal => trivial
  | _ =>
      refine iff_of_false id ?_
      rintro ⟨pairs, heq, -⟩
      cases heq

/-! ### One request -/

def IsJwtError (e : Exn) : Prop := e.isInstance [jwtError] = true

/-- The header of the token names a key id. -/
def Presents (world : AuthWorld) (token : Text) (kid : Json) : Prop :=
  ∃ pairs, world.unverifiedHeader token = .ok (.obj pairs) ∧
    memberOf pairs (text "kid") = some kid

/-- What is read for a token is of the shape that the code expects: its header, the documents
where the cache does not hold its key, and its claims where a key is found. -/
structure TokenReads (pr : Json.Printing) (settings : AuthSettings) (world : AuthWorld)
    (cache : JwksCache) (token : Text) : Prop where
  header : Ends NamesKey IsJwtError (world.unverifiedHeader token)
  documents : ∀ kid, Presents world token kid →
    (∀ key, ¬ cache.Holds world kid key) → DocumentsRead settings world
  claims : ∀ kid key issuer, Presents world token kid →
    ChecksWith settings world cache kid key issuer →
      Ends (ClaimsRead pr settings) IsJwtError
        (world.decode token key (expectedAudience settings) issuer)

theorem readKeyId_obj {world : AuthWorld} {token : Text} {pairs : List (Text × Json)}
    (h : world.unverifiedHeader token = .ok (.obj pairs)) :
    readKeyId world token = match memberOf pairs (text "kid") with
      | none => .error (unauthorized (text "JWT header missing 'kid'"))
      | some kid => .ok kid := by
  rw [readKeyId, h]
  rfl

theorem readKeyId_eq_ok_iff {world : AuthWorld} {token : Text} {kid : Json} :
    readKeyId world token = .ok kid ↔ Presents world token kid := by
  constructor
  · intro h
    obtain ⟨header, hheader, hrest⟩ := bind_eq_ok_iff.mp h
    cases header with
    | obj pairs =>
        have hok := mapError_eq_ok_iff.mp hheader
        rw [readKeyId_obj hok] at h
        refine ⟨pairs, hok, ?_⟩
        split at h
        · cases h
        · rename_i hmember
          rw [hmember, Except.ok.inj h]
    | _ => cases hrest
  · rintro ⟨pairs, hheader, hmember⟩
    rw [readKeyId_obj hheader, hmember]

theorem readKeyId_settled_iff (world : AuthWorld) (token : Text) :
    Settled (readKeyId world token) ↔
      Ends (fun header => ∃ pairs, header = .obj pairs) IsJwtError
        (world.unverifiedHeader token) := by
  cases hheader : world.unverifiedHeader token with
  | error e =>
      rw [readKeyId, hheader, settled_bind_iff, settled_tokenFailure_iff, escapes_error_iff,
        Bool.not_eq_false]
      exact ⟨fun h => ends_error h.1, fun h => ⟨h.2 e rfl, nofun⟩⟩
  | ok header =>
      cases header with
      | obj pairs =>
          rw [readKeyId_obj hheader]
          refine iff_of_true ?_ (ends_ok ⟨pairs, rfl⟩)
          cases memberOf pairs (text "kid") with
          | none => exact .inl rfl
          | some kid => trivial
      | _ =>
          rw [readKeyId, hheader]
          refine iff_of_false id fun h => ?_
          obtain ⟨pairs, heq⟩ := h.1 _ rfl
          cases heq

/-- With the settings of a tenant, only the token and its claims decide. -/
theorem checkToken_settled_iff (pr : Json.Printing) {settings : AuthSettings} (world : AuthWorld)
    (cache : JwksCache) (token : Text) (key : Json) (htenant : settings.entraTenantId ≠ [])
    (hclient : settings.entraClientId ≠ []) :
    Settled (checkToken pr settings world cache token key) ↔
      Ends (ClaimsRead pr settings) IsJwtError
        (world.decode token key (expectedAudience settings) (cache.resolvedIssuer settings)) := by
  have haudience : expectedAudience settings ≠ [] := by
    rw [expectedAudience]
    split
    · assumption
    · exact hclient
  have hconf : ¬(expectedAudience settings = [] ∨
      (cache.resolvedIssuer settings).truthy = false) := by
    rw [resolvedIssuer_truthy htenant]
    exact not_or.mpr ⟨haudience, Bool.noConfusion⟩
  rw [checkToken, if_neg hconf, settled_bind_iff, settled_tokenFailure_iff]
  cases world.decode token key (expectedAudience settings) (cache.resolvedIssuer settings) with
  | error e =>
      rw [escapes_error_iff, Bool.not_eq_false]
      refine ⟨fun h => ends_error h.1, fun h => ⟨h.2 e rfl, fun claims hclaims => ?_⟩⟩
      cases hclaims
  | ok claims =>
      constructor
      · intro h
        exact ends_ok ((checkClaims_settled_iff pr token claims htenant).mp (h.2 claims rfl))
      · intro h
        refine ⟨not_escapes_ok _ _, fun claims' heq => ?_⟩
        obtain rfl : claims = claims' := Except.ok.inj heq
        exact (checkClaims_settled_iff pr token claims htenant).mpr (h.1 claims rfl)

section
variable {pr : Json.Printing} {settings : AuthSettings} {world : AuthWorld} {cache : JwksCache}
  {token : Text}

/-- A header from which no key id is read. -/
theorem validateToken_unread {failure : AuthFailure}
    (hread : readKeyId world token = .error failure) :
    Settled (validateToken pr settings world cache token).1 ↔
      TokenReads pr settings world cache token := by
  have habsent (kid : Json) : ¬ Presents world token kid := by
    rw [← readKeyId_eq_ok_iff, hread]
    intro h
    cases h
  have hsettled := readKeyId_settled_iff world token
  rw [hread] at hsettled
  rw [validateToken, hread]
  dsimp only
  rw [settled_error_iff, hsettled]
  constructor
  · intro h
    refine ⟨⟨fun header hheader => ?_, h.2⟩, fun kid hkid => absurd hkid (habsent kid),
      fun kid _ _ hkid => absurd hkid (habsent kid)⟩
    obtain ⟨pairs, rfl⟩ := h.1 header hheader
    exact ⟨pairs, rfl, fun kid hmember => absurd ⟨pairs, hheader, hmember⟩ (habsent kid)⟩
  · intro h
    refine h.header.mono ?_ fun _ => id
    rintro header ⟨pairs, heq, -⟩
    exact ⟨pairs, heq⟩

theorem Presents.unique {kid kid' : Json} (h : Presents world token kid)
    (h' : Presents world token kid') : kid' = kid := by
  rw [← readKeyId_eq_ok_iff] at h h'
  rw [h] at h'
  exact (Except.ok.inj h').symm

/-- A key id that can be looked up. -/
theorem validateToken_hashable {kid : Json} (hpresents : Presents world token kid)
    (hkid : IsHashable kid) (htenant : settings.entraTenantId ≠ [])
    (hclient : settings.entraClientId ≠ []) :
    Settled (validateToken pr settings world cache token).1 ↔
      TokenReads pr settings world cache token := by
  rw [validateToken, readKeyId_eq_ok_iff.mpr hpresents]
  dsimp only
  rw [settled_bind_iff, settled_keyFailure_iff, JwksCache.getKey_escapes_iff pr htenant hkid]
  constructor
  · rintro ⟨hdocs, htoken⟩
    refine ⟨?_, fun kid' h => hpresents.unique h ▸ hdocs, fun kid' key issuer h hchecks => ?_⟩
    · have hshown := hpresents
      obtain ⟨pairs, hheader, -⟩ := hshown
      rw [hheader]
      refine ends_ok ⟨pairs, rfl, fun kid' hmember' => ?_⟩
      rw [hpresents.unique ⟨pairs, hheader, hmember'⟩]
      exact hkid
    · obtain rfl := hpresents.unique h
      obtain ⟨hkey, rfl⟩ := (checksWith_iff pr htenant hkid hdocs).mp hchecks
      rw [← checkToken_settled_iff pr world _ token key htenant hclient]
      exact htoken key (mapError_eq_ok_iff.mpr hkey)
  · intro h
    have hdocs := h.documents kid hpresents
    refine ⟨hdocs, fun key hkey => ?_⟩
    rw [checkToken_settled_iff pr world _ token key htenant hclient]
    exact h.claims kid key _ hpresents
      ((checksWith_iff pr htenant hkid hdocs).mpr ⟨mapError_eq_ok_iff.mp hkey, rfl⟩)

/-- A key id that is a list or an object. -/
theorem validateToken_unhashable {kid : Json} (hpresents : Presents world token kid)
    (hkid : ¬ IsHashable kid) :
    Settled (validateToken pr settings world cache token).1 ↔
      TokenReads pr settings world cache token := by
  have hlookup : cache.lookup kid = raise .typeError := by
    rw [JwksCache.lookup, hashKey_error hkid]
    rfl
  have hget : cache.getKey pr settings world kid = (raise .typeError, cache) := by
    rw [JwksCache.getKey, hlookup]
    rfl
  rw [validateToken, readKeyId_eq_ok_iff.mpr hpresents]
  dsimp only
  rw [hget]
  refine iff_of_false id fun h => hkid ?_
  obtain ⟨pairs, hheader, hmember⟩ := hpresents
  obtain ⟨pairs', heq, hscalar⟩ := h.header.1 _ hheader
  cases heq
  exact hscalar kid hmember

end

theorem validateToken_settled_iff (pr : Json.Printing) {settings : AuthSettings}
    (world : AuthWorld) (cache : JwksCache) (token : Text)
    (htenant : settings.entraTenantId ≠ []) (hclient : settings.entraClientId ≠ []) :
    Settled (validateToken pr settings world cache token).1 ↔
      TokenReads pr settings world cache token := by
  cases hread : readKeyId world token with
  | error failure => exact validateToken_unread hread
  | ok kid =>
      have hpresents := readKeyId_eq_ok_iff.mp hread
      by_cases hkid : IsHashable kid
      · exact validateToken_hashable hpresents hkid htenant hclient
      · exact validateToken_unhashable hpresents hkid

/-- The request presents a bearer token to a server with the settings of a tenant. -/
def ChecksToken (settings : AuthSettings) (creds : Option Credentials) (token : Text) : Prop :=
  settings.hasEntraConfig = true ∧
    ∃ scheme, creds = some ⟨scheme, token⟩ ∧ asciiLower scheme = text "bearer"

/-- A request ends with a principal or with status 401 or 500 exactly where what is read for
its token is of the expected shape. -/
theorem getCurrentUser_settled_iff (pr : Json.Printing) (settings : AuthSettings)
    (world : AuthWorld) (cache : JwksCache) (creds : Option Credentials) :
    Settled (getCurrentUser pr settings world cache creds).1 ↔
      ∀ token, ChecksToken settings creds token →
        TokenReads pr settings world cache token := by
  cases creds with
  | none =>
      constructor
      · rintro - token ⟨-, scheme, heq, -⟩
        cases heq
      · intro
        rw [getCurrentUser]
        split
        · trivial
        · exact .inl rfl
  | some c =>
      rw [getCurrentUser]
      by_cases hscheme : asciiLower c.scheme = text "bearer"
      · rw [if_neg (not_not.mpr hscheme)]
        cases hconf : settings.hasEntraConfig with
        | false =>
            refine iff_of_true (.inr rfl) fun token h => ?_
            rw [ChecksToken, hconf] at h
            cases h.1
        | true =>
            obtain ⟨htenant, hclient⟩ : settings.entraTenantId ≠ [] ∧
                settings.entraClientId ≠ [] := by
              simpa [AuthSettings.hasEntraConfig] using hconf
            rw [if_neg Bool.true_eq_false.mp, validateToken_settled_iff pr world cache _
              htenant hclient]
            constructor
            · rintro h token ⟨-, scheme, heq, -⟩
              cases heq
              exact h
            · exact fun h => h c.credentials ⟨hconf, c.scheme, rfl, hscheme⟩
      · rw [if_pos hscheme]
        refine iff_of_true (.inl rfl) ?_
        rintro token ⟨-, scheme, heq, h⟩
        cases heq
        exact absurd h hscheme

/-! ### A page in place of the key set -/

/-- What a request to the identity provider comes to: an error of the transport, or a status
and the text of the body, which is missing where the bytes are no text. -/
inductive ProviderAnswer
  | failed (e : Exn)
  | response (status : Nat) (body : Option Text)

/-- `resp.raise_for_status()` and `resp.json()`. -/
def ProviderAnswer.document (loadsLimit : Nat) : ProviderAnswer → Except Exn Json
  | .failed e => .error e
  | .response status body =>
      if 200 ≤ status ∧ status < 300 then
        match body with
        | none => raise .valueError
        | some s => Json.loads loadsLimit s
      else raise (.named (text "HTTPError"))

/-- A provider whose discovery document is in order, and that answers the request for the
keys with a page. -/
def pageWorld : AuthWorld where
  beforeLock := 5
  afterLock := 5
  refreshedAt := 6
  discovery := fun _ => ProviderAnswer.document 1000
    (.response 200 (some (text "\x7b\"jwks_uri\": \"https://login.microsoftonline.com/keys\"\x7d")))
  keySet := fun _ => ProviderAnswer.document 1000
    (.response 200 (some (text "<html>Service unavailable</html>")))
  unverifiedHeader := fun _ => .ok (.obj [(text "kid", .str (text "k1"))])
  decode := fun _ _ _ _ => raise jwtError

theorem getCurrentUser_page : ¬ Settled (getCurrentUser ⟨1000, 1000, fun _ => true⟩
    { entraTenantId := text "tenant", entraClientId := text "client" } pageWorld {}
    (some ⟨text "Bearer", text "token"⟩)).1 := by
  decide +kernel

end NexusBackend
