import NexusBackend.Api.Router

/-!
Who may touch the brokerage account: the routes that reach it do not depend on
`get_current_user`, so the account is protected in a run exactly when no request of the
run reaches it.
-/
namespace NexusBackend

open Python Transition

namespace ApiEvent

/-- The request that the event belongs to. -/
def request : ApiEvent → Nat
  | accepted id _ | called id _ | orderSent id _ | balanceSent id _ | answered id
  | responded id _ => id

/-- The token of the request was accepted. -/
def IsAccepted : ApiEvent → Prop
  | accepted _ _ => True
  | _ => False

/-- A client of the account is called. -/
def IsCall : ApiEvent → Prop
  | called _ _ => True
  | _ => False

/-- A client of the account is called, asks KIS or hears from it. -/
def TouchesAccount : ApiEvent → Prop
  | accepted _ _ | responded _ _ => False
  | _ => True

theorem IsCall.touches {e : ApiEvent} (h : e.IsCall) : e.TouchesAccount := by
  cases e with
  | called _ _ => trivial
  | _ => exact h.elim

end ApiEvent

namespace Api

variable {api : Api}

/-! ### The two kinds of turn -/

/-- A turn that leaves the account alone. -/
structure Apart (turn : Turn) : Prop where
  pending : turn.pending = none
  events : ∀ e ∈ turn.events, ¬ e.TouchesAccount

/-- A turn that calls the account first of all, and accepts no token. -/
structure Calls (turn : Turn) : Prop where
  first : ∃ e ∈ turn.events, e.IsCall
  unchecked : ∀ e ∈ turn.events, ¬ e.IsAccepted

theorem getPage_apart (id : Nat) (arrival : Arrival) (cache : JwksCache) :
    Apart (api.getPage id arrival cache) := by
  simp only [getPage]
  split
  · split
    · exact ⟨rfl, by simp [ApiEvent.TouchesAccount]⟩
    · exact ⟨rfl, by simp [ApiEvent.TouchesAccount]⟩
  · exact ⟨rfl, by simp [ApiEvent.TouchesAccount]⟩

theorem handle_apart {arrival : Arrival} (h : ¬ api.CallsAccount arrival.endpoint) (id : Nat)
    (cache : JwksCache) : Apart (api.handle id arrival cache) := by
  simp only [handle]
  split
  · exact ⟨rfl, by simp [ApiEvent.TouchesAccount]⟩
  · rename_i body hbody
    rw [hbody] at h
    have hclient : api.orderClient = none := by simpa [CallsAccount] using h
    simp only [postOrder, hclient]
    exact ⟨rfl, by simp [ApiEvent.TouchesAccount]⟩
  · rename_i hbalance
    rw [hbalance] at h
    have hclient : api.balanceClient = none := by simpa [CallsAccount] using h
    simp only [getBalance, hclient]
    exact ⟨rfl, by simp [ApiEvent.TouchesAccount]⟩
  · exact getPage_apart id arrival cache

theorem postOrder_calls {client : KisOrderClient} (h : api.orderClient = some client) (id : Nat)
    (arrival : Arrival) (cache : JwksCache) (body : OrderRequestDto) :
    Calls (api.postOrder id arrival cache body) := by
  simp only [postOrder, h]
  split
  · exact ⟨⟨_, List.mem_cons_self, trivial⟩, by simp [ApiEvent.IsAccepted]⟩
  · exact ⟨⟨_, List.mem_cons_self, trivial⟩, by simp [ApiEvent.IsAccepted]⟩

theorem getBalance_calls {client : KisBalanceClient} (h : api.balanceClient = some client)
    (id : Nat) (arrival : Arrival) (cache : JwksCache) :
    Calls (api.getBalance id arrival cache) := by
  simp only [getBalance, h]
  split
  · exact ⟨⟨_, List.mem_cons_self, trivial⟩, by simp [ApiEvent.IsAccepted]⟩
  · exact ⟨⟨_, List.mem_cons_self, trivial⟩, by simp [ApiEvent.IsAccepted]⟩

theorem handle_calls {arrival : Arrival} (h : api.CallsAccount arrival.endpoint) (id : Nat)
    (cache : JwksCache) : Calls (api.handle id arrival cache) := by
  simp only [handle]
  split
  · rename_i hbody
    rw [hbody] at h
    cases h.1
  · rename_i body hbody
    rw [hbody] at h
    obtain ⟨client, hclient⟩ := Option.isSome_iff_exists.mp h.2
    exact postOrder_calls hclient id arrival cache body
  · rename_i hbalance
    rw [hbalance] at h
    obtain ⟨client, hclient⟩ := Option.isSome_iff_exists.mp h
    exact getBalance_calls hclient id arrival cache
  · rename_i hnone hsome hbalance
    simp only [CallsAccount] at h
    split at h
    · exact absurd ‹_› hbalance
    · rename_i body hbody
      cases body with
      | none => exact absurd hbody hnone
      | some body => exact absurd hbody (hsome body)
    · exact h.elim

/-- A turn speaks of its own request only. -/
theorem handle_request (id : Nat) (arrival : Arrival) (cache : JwksCache) :
    ∀ e ∈ (api.handle id arrival cache).events, e.request = id := by
  simp only [handle]
  split
  · simp [ApiEvent.request]
  · simp only [postOrder]
    split
    · simp [ApiEvent.request]
    · split <;> simp [ApiEvent.request]
  · simp only [getBalance]
    split
    · simp [ApiEvent.request]
    · split <;> simp [ApiEvent.request]
  · simp only [getPage]
    split
    · split <;> simp [ApiEvent.request]
    · simp [ApiEvent.request]

/-! ### Runs -/

/-- The step is a request that calls the account. -/
def StepCalls (api : Api) : ApiLabel → Prop
  | .request arrival => api.CallsAccount arrival.endpoint
  | .answer _ _ _ _ => False

/-- What a step does, in two cases: a new request, or the answer a request awaits. -/
theorem step_cases {s t : ApiState} {l : ApiLabel} {es : List ApiEvent}
    (h : api.step s l = some (t, es)) :
    (∃ arrival, l = .request arrival ∧ es = (api.handle s.started arrival s.cache).events ∧
      t.started = s.started + 1 ∧ t.pending = Function.update s.pending s.started
        (api.handle s.started arrival s.cache).pending) ∨
    ∃ id sent now mockId pending, l = .answer id sent now mockId ∧
      s.pending id = some pending ∧ t.started = s.started ∧
      t.pending = Function.update s.pending id none ∧
      es = [.answered id, .responded id (api.resume sent now mockId pending)] := by
  cases l with
  | request arrival =>
      obtain ⟨rfl, rfl⟩ := Prod.mk.inj (Option.some.inj h)
      exact .inl ⟨arrival, rfl, rfl, rfl, rfl⟩
  | answer id sent now mockId =>
      obtain ⟨pending, hp, ht⟩ := Option.map_eq_some_iff.mp h
      obtain ⟨rfl, rfl⟩ := Prod.mk.inj ht
      exact .inr ⟨id, sent, now, mockId, pending, rfl, hp, rfl, rfl, rfl⟩

theorem step_calls_iff {s t : ApiState} {l : ApiLabel} {es : List ApiEvent}
    (h : api.step s l = some (t, es)) : (∀ e ∈ es, ¬ e.IsCall) ↔ ¬ api.StepCalls l := by
  obtain ⟨arrival, rfl, rfl, -, -⟩ | ⟨id, sent, now, mockId, pending, rfl, -, -, -, rfl⟩ :=
    step_cases h
  · by_cases hc : api.CallsAccount arrival.endpoint
    · obtain ⟨e, he, hcall⟩ := (handle_calls hc s.started s.cache).first
      exact iff_of_false (fun hno => hno e he hcall) (not_not.mpr hc)
    · have hapart := handle_apart hc s.started s.cache
      exact iff_of_true (fun e he hcall => hapart.events e he hcall.touches) hc
  · exact iff_of_true (by simp [ApiEvent.IsCall]) not_false

/-- The numbers of the requests so far, and no request is both accepted and calls. -/
structure Separate (s : ApiState) (tr : List ApiEvent) : Prop where
  started : ∀ e ∈ tr, e.request < s.started
  pending : ∀ id, s.pending id ≠ none → id < s.started
  apart : ∀ a ∈ tr, ∀ c ∈ tr, a.IsAccepted → c.IsCall → a.request ≠ c.request

theorem separate_initial : Separate {} [] :=
  ⟨by simp, fun _ h => absurd rfl h, by simp⟩

theorem step_separate {s t : ApiState} {l : ApiLabel} {es tr : List ApiEvent}
    (hs : Separate s tr) (h : api.step s l = some (t, es)) : Separate t (tr ++ es) := by
  obtain ⟨arrival, rfl, rfl, ht, hp⟩ | ⟨id, sent, now, mockId, pending, rfl, hid, ht, hp, rfl⟩ :=
    step_cases h
  · have hreq := @handle_request api s.started arrival s.cache
    refine ⟨fun e he => ?_, fun id hid => ?_, fun a ha c hc hacc hcall => ?_⟩
    · rw [ht]
      rcases List.mem_append.mp he with he | he
      · exact Nat.lt_succ_of_lt (hs.started e he)
      · rw [hreq e he]
        exact Nat.lt_succ_self _
    · rw [ht]
      rw [hp] at hid
      by_cases heq : id = s.started
      · omega
      · rw [Function.update_of_ne heq] at hid
        exact Nat.lt_succ_of_lt (hs.pending id hid)
    · rcases List.mem_append.mp ha with ha | ha <;> rcases List.mem_append.mp hc with hc | hc
      · exact hs.apart a ha c hc hacc hcall
      · rw [hreq c hc]
        exact (hs.started a ha).ne
      · rw [hreq a ha]
        exact (hs.started c hc).ne'
      · by_cases hcalls : api.CallsAccount arrival.endpoint
        · exact absurd hacc ((handle_calls hcalls s.started s.cache).unchecked a ha)
        · exact absurd hcall.touches ((handle_apart hcalls s.started s.cache).events c hc)
  · have hlt : id < s.started := hs.pending id (by rw [hid]; exact nofun)
    have hes : ∀ e ∈ [ApiEvent.answered id, .responded id (api.resume sent now mockId pending)],
        e.request = id ∧ ¬ e.IsAccepted ∧ ¬ e.IsCall := by
      simp [ApiEvent.request, ApiEvent.IsAccepted, ApiEvent.IsCall]
    refine ⟨fun e he => ?_, fun k hk => ?_, fun a ha c hc hacc hcall => ?_⟩
    · rw [ht]
      rcases List.mem_append.mp he with he | he
      · exact hs.started e he
      · rwa [(hes e he).1]
    · rw [ht]
      rw [hp] at hk
      by_cases heq : k = id
      · rwa [heq]
      · rw [Function.update_of_ne heq] at hk
        exact hs.pending k hk
    · rcases List.mem_append.mp ha with ha | ha
      · rcases List.mem_append.mp hc with hc | hc
        · exact hs.apart a ha c hc hacc hcall
        · exact absurd hcall (hes c hc).2.2
      · exact absurd hacc (hes a ha).2.1

/-- No request awaits the brokerage, and nothing so far touched the account. -/
structure Untouched (s : ApiState) (tr : List ApiEvent) : Prop where
  pending : ∀ id, s.pending id = none
  events : ∀ e ∈ tr, ¬ e.TouchesAccount

theorem step_untouched {s t : ApiState} {l : ApiLabel} {es tr : List ApiEvent}
    (hl : ¬ api.StepCalls l) (hs : Untouched s tr) (h : api.step s l = some (t, es)) :
    Untouched t (tr ++ es) := by
  obtain ⟨arrival, rfl, rfl, -, hp⟩ | ⟨id, sent, now, mockId, pending, rfl, hid, -, -, -⟩ :=
    step_cases h
  · have hapart := handle_apart hl s.started s.cache
    refine ⟨fun id => ?_, fun e he => ?_⟩
    · rw [hp, hapart.pending]
      by_cases heq : id = s.started
      · rw [heq, Function.update_self]
      · rw [Function.update_of_ne heq]
        exact hs.pending id
    · rcases List.mem_append.mp he with he | he
      · exact hs.events e he
      · exact hapart.events e he
  · rw [hs.pending id] at hid
    cases hid

/-! ### The account is protected -/

/-- `get_current_user` would reject the request in this state. -/
def Rejects (api : Api) (s : ApiState) (arrival : Arrival) : Prop :=
  (getCurrentUser api.printing api.auth arrival.auth s.cache arrival.creds).1.isOk = false

/-- Of a run from the start: each call on the account comes after the acceptance of its own
request's token, and no event of a request that `get_current_user` would reject touches
the account. -/
structure AccountProtected (api : Api) (ls : List ApiLabel) (tr : List ApiEvent) : Prop where
  authenticated : ∀ past id call rest, tr = past ++ .called id call :: rest →
    ∃ principal, .accepted id principal ∈ past
  rejected : ∀ before arrival after s past, ls = before ++ .request arrival :: after →
    api.machine.run {} before = some (s, past) → api.Rejects s arrival →
    ∀ e ∈ tr, e.request = s.started → ¬ e.TouchesAccount

theorem run_calls_iff {ls : List ApiLabel} {t : ApiState} {tr : List ApiEvent}
    (hr : api.machine.run {} ls = some (t, tr)) :
    (∀ e ∈ tr, ¬ e.IsCall) ↔ ∀ l ∈ ls, ¬ api.StepCalls l := by
  rw [← Machine.along_iff_forall hr]
  exact Machine.run_avoids_iff (I := fun _ => True) (fun _ _ _ _ _ _ => trivial)
    (fun _ _ _ _ _ h => step_calls_iff h) trivial hr

theorem protected_no_call {ls : List ApiLabel} {t : ApiState} {tr : List ApiEvent}
    (hr : api.machine.run {} ls = some (t, tr)) (h : AccountProtected api ls tr) :
    ∀ e ∈ tr, ¬ e.IsCall := by
  have hsep : Separate t tr := Machine.run_invariant (I := Separate)
    (fun _ _ _ _ _ hs hstep => step_separate hs hstep) separate_initial hr
  intro e he hcall
  cases e with
  | called id call =>
      obtain ⟨past, rest, rfl⟩ := List.append_of_mem he
      obtain ⟨principal, hacc⟩ := h.authenticated past id call rest rfl
      exact hsep.apart _ (List.mem_append_left _ hacc) _ he trivial trivial rfl
  | _ => exact hcall.elim

theorem run_untouched {ls : List ApiLabel} {t : ApiState} {tr : List ApiEvent}
    (hr : api.machine.run {} ls = some (t, tr)) (h : ∀ l ∈ ls, ¬ api.StepCalls l) :
    Untouched t tr := by
  have halong := (Machine.along_iff_forall hr).mpr h
  have h0 : Untouched {} [] := ⟨fun _ => rfl, nofun⟩
  exact Machine.run_invariant_along (I := Untouched)
    (fun _ _ _ _ _ hl hs hstep => step_untouched hl hs hstep) h0 halong hr

/-- The account is protected in a run exactly when no request of the run calls a wired
client of the account. -/
theorem account_protected_iff {ls : List ApiLabel} {t : ApiState} {tr : List ApiEvent}
    (hr : api.machine.run {} ls = some (t, tr)) :
    AccountProtected api ls tr ↔ ∀ l ∈ ls, ¬ api.StepCalls l := by
  refine ⟨fun h => (run_calls_iff hr).mp (protected_no_call hr h), fun h => ?_⟩
  have huntouched := run_untouched hr h
  refine ⟨fun past id call rest htr => ?_, fun _ _ _ _ _ _ _ _ e he _ => huntouched.events e he⟩
  have hmem : ApiEvent.called id call ∈ tr := by simp [htr]
  exact absurd trivial (huntouched.events _ hmem)

/-! ### A request without a token -/

/-- Production with the identity provider configured and KIS up. -/
def productionApi : Api :=
  wire ⟨1000, 1000, fun _ => true⟩
    { appEnv := .production, entraTenantId := text "tenant", entraClientId := text "client" }
    { accountNumber := text "12345678-01" } true

def silentWorld : AuthWorld :=
  ⟨0, 0, 0, fun _ => raise .runtimeError, fun _ => raise .runtimeError, fun _ => raise jwtError,
    fun _ _ _ _ => raise jwtError⟩

/-- A request without credentials, while KIS has an access token. -/
def anonymous (endpoint : Endpoint) : Arrival where
  endpoint := endpoint
  creds := none
  auth := silentWorld
  accessToken := some (text "token")
  now := ⟨sampleDate, ⟨1, 0, 0, 0, by decide⟩⟩
  mockId := text "MOCK-00000000"
  page := []

def buyTen : OrderRequestDto where
  symbol := text "005930"
  action := .buy
  quantity := 10
  action_side := by decide
  quantity_pos := by decide
  price_nonneg := by decide

/-- A protected page refuses the request, and the account stays protected. -/
theorem anonymous_snapshot_protected : ∃ t tr,
    productionApi.machine.run {} [.request (anonymous .snapshot)] = some (t, tr) ∧
      AccountProtected productionApi [.request (anonymous .snapshot)] tr :=
  ⟨_, _, rfl, (account_protected_iff rfl).mpr (by simp [StepCalls, CallsAccount, anonymous])⟩

/-- The order of a request that `get_current_user` would reject goes to KIS. -/
theorem anonymous_order_sent : ∃ t sent,
    productionApi.machine.run {} [.request (anonymous (.order (some buyTen)))] =
        some (t, [.called 0 (.placeOrder buyTen.toPlaceOrder), .orderSent 0 sent]) ∧
      productionApi.Rejects {} (anonymous (.order (some buyTen))) ∧
      ¬ AccountProtected productionApi [.request (anonymous (.order (some buyTen)))]
        [.called 0 (.placeOrder buyTen.toPlaceOrder), .orderSent 0 sent] := by
  refine ⟨_, _, rfl, rfl, fun h => ?_⟩
  obtain ⟨principal, hmem⟩ := h.authenticated [] 0 _ _ rfl
  cases hmem

end Api
end NexusBackend
