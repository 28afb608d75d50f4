import NexusBackend.Kis.OAuth
import NexusBackend.Publishers.Supervisor

/-!
The token of a client: its refresh beside the open WebSocket, the loop that refreshes it, and
the bring-up of the supervisor.

A turn of the loop and the operations of other tasks follow one another; what they do while
`authenticate` awaits its answer is not covered, nor is the time between the turns. The clock
keeps the headroom away from the end of year 9999.
-/
namespace NexusBackend

open Python Transition KisClient

/-! ### The open stream -/

/-- `stream_ticks` up to its loop: the socket that it reads. -/
def KisClient.openStream (c : KisClient) : Except Exn Nat :=
  match c.state, c.ws with
  | .connected, some ws => .ok ws
  | _, _ => raise .runtimeError
      (text "stream_ticks() requires CONNECTED state (have " ++ c.state.value ++ text ")")

/-- The realtime side of the client is as before. -/
structure Transparent (before after : KisClient) : Prop where
  state : after.state = .connected
  ws : after.ws = before.ws
  approvalKey : after.approvalKey = before.approvalKey
  isWsOpen : after.isWsOpen = before.isWsOpen

namespace KisSystem

variable (pr : Json.Printing) (parseWall : Text → Except Exn Int)

/-- A forced `authenticate` keeps the socket and its key and ends unconnected. -/
theorem authenticate_force (s : KisSystem) (now : Int) (answer : Except Exn TextResponse)
    (answered : Int) :
    (s.authenticate pr parseWall true now answer answered).1.client.ws = s.client.ws ∧
      (s.authenticate pr parseWall true now answer answered).1.client.approvalKey =
        s.client.approvalKey ∧
      (s.authenticate pr parseWall true now answer answered).1.client.state ≠ .connected := by
  have hforce : ¬(!true && s.client.isTokenValid now) = true := by
    rw [Bool.not_true, Bool.false_and]
    exact Bool.false_ne_true
  rw [authenticate, KisClient.authenticate, if_neg hforce]
  by_cases hkey : s.client.settings.appKey = [] ∨ s.client.settings.appSecret = []
  · rw [if_pos hkey]
    refine ⟨rfl, rfl, ?_⟩
    intro h
    cases h
  · rw [if_neg hkey]
    exact authenticated_frame pr parseWall { s.client with state := .authenticating } answer
      answered rfl

/-- Whatever the endpoint answers, a forced `authenticate` of a connected client leaves its
socket and the key of it in place and unusable. -/
theorem refresh_disturbs {s : KisSystem} (hopen : s.client.isWsOpen = true) (now : Int)
    (answer : Except Exn TextResponse) (answered : Int) :
    let after := (s.authenticate pr parseWall true now answer answered).1.client
    ¬ Transparent s.client after ∧
      (after.ws = s.client.ws ∧ after.approvalKey = s.client.approvalKey ∧ after.ws ≠ none) ∧
      after.isWsOpen = false ∧ after.openStream.isOk = false ∧
      ∀ trId symbols, (after.subscribe trId symbols).1.isOk = false ∧
        (after.subscribe trId symbols).2 = [] := by
  intro after
  obtain ⟨hws, hkey, hstate⟩ := s.authenticate_force pr parseWall now answer answered
  have hheld : s.client.ws ≠ none := by
    intro hnone
    rw [isWsOpen, hnone] at hopen
    cases hopen
  have hclosed : after.isWsOpen = false := by
    rw [isWsOpen, decide_eq_false hstate, Bool.and_false]
  refine ⟨fun h => hstate h.state, ⟨hws, hkey, ?_⟩, hclosed, ?_, ?_⟩
  · exact fun hnone => hheld (hws.symm.trans hnone)
  · rw [openStream]
    split
    · rename_i hconnected _
      exact absurd hconnected hstate
    · rfl
  · intro trId symbols
    rw [KisClient.subscribe, if_pos (.inl hstate)]
    exact ⟨rfl, rfl⟩

def samplePrinting : Json.Printing := ⟨1, 1, fun _ => true⟩

/-- A client with its token and its socket. -/
def connectedPaper : KisSystem :=
  (((start paperSettings).authenticate samplePrinting parseKst false 0 tokenAnswer 0).1.connect
    samplePrinting 0 keyAnswer (.ok ())).1

theorem connectedPaper_isWsOpen : connectedPaper.client.isWsOpen = true := by
  decide +kernel

/-- A refresh that succeeds closes the stream to its reader. -/
theorem refresh_not_transparent :
    ¬ Transparent connectedPaper.client
      (connectedPaper.authenticate samplePrinting parseKst true 0 tokenAnswer 0).1.client :=
  fun h => (connectedPaper.authenticate_force _ parseKst 0 tokenAnswer 0).2.2 h.state

theorem refresh_disturbs_connectedPaper :
    let after := (connectedPaper.authenticate samplePrinting parseKst true 0 tokenAnswer 0).1.client
    after.ws = connectedPaper.client.ws ∧ after.isWsOpen = false :=
  have h := refresh_disturbs samplePrinting parseKst connectedPaper_isWsOpen 0 tokenAnswer 0
  ⟨h.2.1.1, h.2.2.1⟩

/-! ### Authenticating -/

/-- `authenticate` comes to its POST. -/
def Requests (s : KisSystem) (force : Bool) (now : Int) : Prop :=
  ∃ request c, s.client.authenticate force now = .waiting request c

theorem waiting_state {c c' : KisClient} {force : Bool} {now : Int} {request : KisRequest}
    (h : c.authenticate force now = .waiting request c') : c'.state = .authenticating := by
  rw [KisClient.authenticate] at h
  split_ifs at h
  cases h
  rfl

theorem authenticate_waiting {s : KisSystem} {c : KisClient} {force : Bool} {now : Int}
    {request : KisRequest} (h : s.client.authenticate force now = .waiting request c)
    (answer : Except Exn TextResponse) (answered : Int) :
    s.authenticate pr parseWall force now answer answered =
      (s.withClient (c.authenticated pr parseWall answer answered).2,
        (c.authenticated pr parseWall answer answered).1) := by
  rw [authenticate, h]

/-- What `authenticate` returns or raises, with the client that it leaves. -/
def authenticates (s : KisSystem) (force : Bool) (now : Int)
    (answer : Except Exn TextResponse) (answered : Int) : Except Exn Unit × KisClient :=
  ((s.authenticate pr parseKst force now answer answered).2,
    (s.authenticate pr parseKst force now answer answered).1.client)

theorem authenticates_settles_iff {s : KisSystem} {force : Bool} {now : Int}
    (h : s.Requests force now) (answer : Except Exn TextResponse) (answered : Int) :
    Settles (s.authenticates pr force now answer answered) ↔ Handled pr answer answered := by
  obtain ⟨request, c, hc⟩ := h
  rw [authenticates, authenticate_waiting pr parseKst hc, withClient_client]
  exact authenticated_settles_iff pr (waiting_state hc) answer answered

/-- On an answer that is covered, whatever `authenticate` raises is an error of the client. -/
theorem authenticate_raises {s : KisSystem} {force : Bool} {now : Int}
    {answer : Except Exn TextResponse} {answered : Int} (h : Handled pr answer answered) {e : Exn}
    (he : (s.authenticate pr parseKst force now answer answered).2 = .error e) :
    e.isInstance kisErrors = true := by
  by_cases hrequests : s.Requests force now
  · obtain hok | ⟨e', he', hi, -⟩ := (authenticates_settles_iff pr hrequests answer answered).mpr h
    · have hreturned := hok.1
      rw [authenticates, he] at hreturned
      cases hreturned
    · rw [authenticates, he] at he'
      cases he'
      exact hi
  · rw [authenticate] at he
    cases hc : s.client.authenticate force now with
    | waiting request c => exact absurd ⟨request, c, hc⟩ hrequests
    | ended result c =>
        rw [hc] at he
        obtain rfl : result = .error e := he
        rw [KisClient.authenticate] at hc
        split_ifs at hc
        · cases hc
        · cases hc
          exact Exn.isInstance_of_mem _ rfl List.mem_cons_self

/-! ### The bring-up -/

/-- The handler of `_try_start_kis`. -/
def bringUpFailed (s : KisSystem) (e : Exn) : KisSystem × Except Exn Bool :=
  if e.isInstance kisErrors then (s.close.1, .ok false) else (s, .error e)

/-- `_try_start_kis`: whether the KIS publisher is to start. -/
def tryStartKis (parseWall : Text → Except Exn Int) (settings : KisSettings) (now : Int)
    (answer : Except Exn TextResponse) (answered : Int) (approval : Except Exn TextResponse)
    (opening : Except Exn Unit) : KisSystem × Except Exn Bool :=
  match (start settings).authenticate pr parseWall false now answer answered with
  | (s, .error e) => s.bringUpFailed e
  | (s, .ok ()) =>
      match s.connect pr answered approval opening with
      | (s, .error e) => s.bringUpFailed e
      | (s, .ok ()) => (s, .ok true)

/-- `start()` of the supervisor. -/
def startSupervisor (parseWall : Text → Except Exn Int) (settings : KisSettings)
    (development : Bool) (now : Int) (answer : Except Exn TextResponse) (answered : Int)
    (approval : Except Exn TextResponse) (opening : Except Exn Unit) : Except Exn Supervisor :=
  if settings.appKey ≠ [] ∧ settings.appSecret ≠ [] then
    (fun kisOk => Supervisor.start true kisOk development) <$>
      (tryStartKis pr parseWall settings now answer answered approval opening).2
  else .ok (Supervisor.start false false development)

end KisSystem

/-! ### The refresh loop -/

/-- `_TokenRefreshLoop` with the client that it refreshes; `raised` is what ended its task. -/
structure TokenRefreshLoop where
  system : KisSystem
  headroom : Int := 1800000000
  refreshCount : Nat := 0
  failureCount : Nat := 0
  raised : Option Exn := none

/-- The loop comes back from its sleep, with all that a refresh then meets, or another task
calls the client. -/
inductive RefreshLabel
  | wakes (now : Int) (answer : Except Exn TextResponse) (answered : Int)
  | operation (op : KisOperation)

namespace TokenRefreshLoop

/-- `_needs_refresh`. -/
def needsRefresh (l : TokenRefreshLoop) (now : Int) : Bool :=
  match l.system.client.tokenExpiresAt with
  | none => true
  | some expiresAt => decide (expiresAt ≤ now + l.headroom)

/-- A turn of the loop behind its test. -/
def refresh (pr : Json.Printing) (parseWall : Text → Except Exn Int) (l : TokenRefreshLoop)
    (now : Int) (answer : Except Exn TextResponse) (answered : Int) : TokenRefreshLoop :=
  match l.system.authenticate pr parseWall true now answer answered with
  | (system, .ok ()) => { l with system, refreshCount := l.refreshCount + 1 }
  | (system, .error e) =>
      if e.isInstance kisErrors then { l with system, failureCount := l.failureCount + 1 }
      else { l with system, raised := some e }

def step (pr : Json.Printing) (parseWall : Text → Except Exn Int) (l : TokenRefreshLoop) :
    RefreshLabel → Option TokenRefreshLoop
  | .wakes now answer answered =>
      if l.raised ≠ none then none
      else if l.needsRefresh now then some (l.refresh pr parseWall now answer answered)
      else some l
  | .operation op => some { l with system := (l.system.apply pr parseWall op).1 }

def machine (pr : Json.Printing) (parseWall : Text → Except Exn Int) :
    Machine TokenRefreshLoop RefreshLabel Unit where
  step l label := (l.step pr parseWall label).map fun l' => (l', [])

/-- The answer of the endpoint at this turn is covered. -/
def TurnHandled (pr : Json.Printing) : RefreshLabel → Prop
  | .wakes _ answer answered => Handled pr answer answered
  | .operation _ => True

variable (pr : Json.Printing)

theorem refresh_alive {l : TokenRefreshLoop} (hl : l.raised = none) {now : Int}
    {answer : Except Exn TextResponse} {answered : Int} (h : Handled pr answer answered) :
    (l.refresh pr parseKst now answer answered).raised = none := by
  have hraises (e : Exn)
      (he : (l.system.authenticate pr parseKst true now answer answered).2 = .error e) :
      e.isInstance kisErrors = true := KisSystem.authenticate_raises pr h he
  rw [refresh]
  cases hauth : l.system.authenticate pr parseKst true now answer answered with
  | mk system result =>
      rw [hauth] at hraises
      cases result with
      | ok u => exact hl
      | error e =>
          dsimp only
          rw [if_pos (hraises e rfl)]
          exact hl

theorem step_alive {l l' : TokenRefreshLoop} {label : RefreshLabel} (hl : l.raised = none)
    (h : TurnHandled pr label) (hs : l.step pr parseKst label = some l') : l'.raised = none := by
  cases label with
  | wakes now answer answered =>
      rw [step, if_neg (not_not.mpr hl)] at hs
      split at hs
      · cases hs
        exact refresh_alive pr hl h
      · cases hs
        exact hl
  | operation op =>
      cases hs
      exact hl

theorem run_alive {l : TokenRefreshLoop} (hl : l.raised = none) {labels : List RefreshLabel}
    (h : (machine pr parseKst).Along (fun _ label => TurnHandled pr label) l labels) :
    (machine pr parseKst).Throughout (fun l => l.raised = none) l labels := by
  refine Machine.throughout_of_invariant_along (fun _ h => h) ?_ labels hl h
  intro l label l' es hlabel hl hs
  obtain ⟨l'', hs', he⟩ := Option.map_eq_some_iff.mp hs
  cases he
  exact step_alive pr hl hlabel hs'

end TokenRefreshLoop

namespace KisSystem

variable (pr : Json.Printing)

theorem close_state (s : KisSystem) : s.close.1.client.state = .disconnected := rfl

/-- Where `authenticate` raises on a covered answer, the bring-up closes its client and
falls back. -/
theorem tryStartKis_falls_back {settings : KisSettings} {now : Int}
    {answer : Except Exn TextResponse} {answered : Int} (h : Handled pr answer answered) {e : Exn}
    (he : ((start settings).authenticate pr parseKst false now answer answered).2 = .error e)
    (approval : Except Exn TextResponse) (opening : Except Exn Unit) :
    (tryStartKis pr parseKst settings now answer answered approval opening).2 = .ok false ∧
      (tryStartKis pr parseKst settings now answer answered approval opening).1.client.state =
        .disconnected := by
  have hi := authenticate_raises pr h he
  rw [tryStartKis]
  cases hauth : (start settings).authenticate pr parseKst false now answer answered with
  | mk s result =>
      rw [hauth] at he
      obtain rfl : result = .error e := he
      dsimp only
      rw [bringUpFailed, if_pos hi]
      exact ⟨rfl, s.close_state⟩

theorem startSupervisor_falls_back {settings : KisSettings}
    (hcreds : settings.appKey ≠ [] ∧ settings.appSecret ≠ []) (development : Bool) {now : Int}
    {answer : Except Exn TextResponse} {answered : Int} (h : Handled pr answer answered) {e : Exn}
    (he : ((start settings).authenticate pr parseKst false now answer answered).2 = .error e)
    (approval : Except Exn TextResponse) (opening : Except Exn Unit) :
    startSupervisor pr parseKst settings development now answer answered approval opening =
      .ok (Supervisor.start true false development) := by
  rw [startSupervisor, if_pos hcreds, (tryStartKis_falls_back pr h he approval opening).1]
  rfl

/-- `authenticate` settles exactly on the answers that its handlers cover; on these the loop
goes on, and a bring-up whose `authenticate` raises falls back. -/
theorem answers_settle :
    (∀ (s : KisSystem) (force : Bool) (now : Int) (answer : Except Exn TextResponse)
      (answered : Int), s.Requests force now →
        (Settles (s.authenticates pr force now answer answered) ↔ Handled pr answer answered)) ∧
    (∀ (l : TokenRefreshLoop) (labels : List RefreshLabel), l.raised = none →
      (TokenRefreshLoop.machine pr parseKst).Along
        (fun _ label => TokenRefreshLoop.TurnHandled pr label) l labels →
      (TokenRefreshLoop.machine pr parseKst).Throughout (fun l => l.raised = none) l labels) ∧
    ∀ (settings : KisSettings) (development : Bool) (now : Int)
      (answer : Except Exn TextResponse) (answered : Int) (approval : Except Exn TextResponse)
      (opening : Except Exn Unit) (e : Exn), settings.appKey ≠ [] ∧ settings.appSecret ≠ [] →
      Handled pr answer answered →
      ((start settings).authenticate pr parseKst false now answer answered).2 = .error e →
      startSupervisor pr parseKst settings development now answer answered approval opening =
        .ok (Supervisor.start true false development) := by
  refine ⟨?_, ?_, ?_⟩
  · intro s force now answer answered h
    exact authenticates_settles_iff pr h answer answered
  · intro l labels hl h
    exact TokenRefreshLoop.run_alive pr hl h
  · intro settings development now answer answered approval opening e hcreds h he
    exact startSupervisor_falls_back pr hcreds development h he approval opening

theorem start_requests : (start paperSettings).Requests false 0 := ⟨_, _, rfl⟩

theorem tokenAnswer_handled (pr : Json.Printing) : Handled pr tokenAnswer 0 := by
  have hfits : FitsCalendar (.int 86400) 0 :=
    ⟨.finite 86400, 86400000000, by decide +kernel, by decide +kernel, by decide⟩
  intro token ht
  obtain rfl : .str (text "token") = token := Option.some.inj ht
  refine ⟨⟨_, _, rfl⟩, ?_, ?_⟩
  · intro v hv _
    obtain rfl : .int 86400 = v := Option.some.inj hv
    exact hfits
  · intro _ wall hwall
    cases hwall

def timeoutAnswer : Except Exn TextResponse := .error ⟨httpTimeout, []⟩

theorem answers_settle_paper :
    Settles ((start paperSettings).authenticates samplePrinting false 0 tokenAnswer 0) ∧
    (TokenRefreshLoop.machine samplePrinting parseKst).Throughout
      (fun l => l.raised = none) { system := start paperSettings } [.wakes 0 timeoutAnswer 0] ∧
    startSupervisor samplePrinting parseKst paperSettings true 0 timeoutAnswer 0
      keyAnswer (.ok ()) = .ok (Supervisor.start true false true) := by
  have hall := answers_settle samplePrinting
  refine ⟨?_, ?_, ?_⟩
  · exact (hall.1 _ false 0 tokenAnswer 0 start_requests).mpr (tokenAnswer_handled _)
  · exact hall.2.1 _ _ rfl ⟨rfl, fun _ _ _ => trivial⟩
  · exact hall.2.2 paperSettings true 0 timeoutAnswer 0 keyAnswer (.ok ()) _ ⟨nofun, nofun⟩ rfl rfl

/-- A good status whose token is null. -/
def nullToken : Except Exn TextResponse := answering [(text "access_token", .null)]

/-- A good status whose lifetime is infinite. -/
def endlessToken : Except Exn TextResponse :=
  answering [(text "access_token", .str (text "token")),
    (text "expires_in", .float (.inf false))]

/-- A null token passes for a token and ends the loop and the bring-up; an infinite lifetime
leaves the client authenticating. -/
theorem unread_answers :
    (start paperSettings).Requests false 0 ∧
    ¬ Settles ((start paperSettings).authenticates samplePrinting false 0 nullToken 0) ∧
    (TokenRefreshLoop.refresh samplePrinting parseKst { system := start paperSettings } 0
      nullToken 0).raised = some ⟨.typeError, []⟩ ∧
    startSupervisor samplePrinting parseKst paperSettings true 0 nullToken 0
      keyAnswer (.ok ()) = .error ⟨.typeError, []⟩ ∧
    ((start paperSettings).authenticates samplePrinting false 0 endlessToken 0).1 =
      .error ⟨.overflowError, []⟩ ∧
    ((start paperSettings).authenticates samplePrinting false 0 endlessToken 0).2.state =
      .authenticating := by
  refine ⟨start_requests, ?_, ?_, ?_, ?_, ?_⟩
  · rintro (h | ⟨e, -, -, h⟩)
    · obtain ⟨-, -, a, as, h⟩ := h
      cases h
    · cases h
  · rfl
  · rfl
  · rfl
  · rfl

end KisSystem
end NexusBackend
