import NexusBackend.Trading.MacroContract

/-!
The clients of the language models, and `MacroAgent` as the lifespan wires it to them.

A request raises, or it is answered with a status and a body; a body without a text is one whose
bytes do not decode. The messages of the exceptions are left out: the agent names their class only.
-/
namespace NexusBackend

open Python

/-! ### The answer of a provider -/

/-- What becomes of the POST; `raises` is any exception but those of `httpx`. -/
inductive LlmAnswer
  | timeout
  | networkError
  | raises (e : Exn)
  | response (status : Nat) (body : Option Text)

def llmClientError : ExnKind := .named (text "LLMClientError")

/-- `resp.json()`. -/
def decodeBody (loadsLimit : Nat) : Option Text → Except Exn Json
  | none => raise .valueError
  | some s => Json.loads loadsLimit s

/-- What both clients do around the reading of the body. -/
def LlmAnswer.read {α : Type} (answer : LlmAnswer) (reading : Option Text → Except Exn α) :
    Except Exn α :=
  match answer with
  | .timeout | .networkError => raise llmClientError
  | .raises e => .error e
  | .response status body => if 400 ≤ status then raise llmClientError else reading body

/-- `v[0]`. -/
def firstItem : Json → Except Exn Json
  | .arr (v :: _) => .ok v
  | .arr [] => raise .indexError
  | .str (c :: _) => .ok (.str [c])
  | .str [] => raise .indexError
  | .obj _ => raise .keyError
  | _ => raise .typeError

/-- `payload["choices"][0]["message"]["content"]`. -/
def choiceContent (payload : Json) : Except Exn Json := do
  let choices ← payload.index (text "choices")
  let choice ← firstItem choices
  let message ← choice.index (text "message")
  message.index (text "content")

/-- The content of the first choice. -/
def openAiContent (loadsLimit : Nat) (body : Option Text) : Except Exn Text := do
  let content ← tryExcept (decodeBody loadsLimit body >>= choiceContent)
    [.valueError, .keyError, .indexError, .typeError] fun _ => raise llmClientError
  match content with
  | .str s => return s
  | _ => raise llmClientError

/-- `OpenAIClient.complete`. -/
def openAiComplete (loadsLimit : Nat) (answer : LlmAnswer) : Except Exn Text :=
  answer.read (openAiContent loadsLimit)

/-- `b["text"]` of a block that is a dictionary of the type `text` and has one. -/
def blockText? : Json → Option Json
  | .obj pairs =>
      match Json.get? pairs (text "type") with
      | some (.str kind) => if kind = text "text" then Json.get? pairs (text "text") else none
      | _ => none
  | _ => none

/-- A part that can be joined. -/
def partText : Json → Except Exn Text
  | .str s => .ok s
  | _ => raise .typeError

/-- `"".join(parts)`. -/
def joinParts (parts : List Json) : Except Exn Text := List.flatten <$> parts.mapM partText

/-- `payload["content"]`, block by block. -/
def contentBlocks (payload : Json) : Except Exn (List Json) :=
  payload.index (text "content") >>= Json.iterate

/-- The blocks of text in a row. -/
def anthropicContent (loadsLimit : Nat) (body : Option Text) : Except Exn Text := do
  let blocks ← tryExcept (decodeBody loadsLimit body >>= contentBlocks)
    [.valueError, .keyError, .typeError] fun _ => raise llmClientError
  let parts := blocks.filterMap blockText?
  if parts = [] then raise llmClientError else joinParts parts

/-- `AnthropicClient.complete`. -/
def anthropicComplete (loadsLimit : Nat) (answer : LlmAnswer) : Except Exn Text :=
  answer.read (anthropicContent loadsLimit)

/-! ### The factory -/

inductive LlmProvider
  | openai
  | anthropic
deriving DecidableEq

namespace LlmProvider

def value : LlmProvider → Text
  | openai => text "openai"
  | anthropic => text "anthropic"

/-- `_DEFAULT_OPENAI_MODEL` and `_DEFAULT_ANTHROPIC_MODEL`. -/
def defaultModel : LlmProvider → Text
  | openai => text "gpt-4o-mini"
  | anthropic => text "claude-sonnet-4-7-20250828"

def content : LlmProvider → Nat → Option Text → Except Exn Text
  | openai => openAiContent
  | anthropic => anthropicContent

def complete : LlmProvider → Nat → LlmAnswer → Except Exn Text
  | openai => openAiComplete
  | anthropic => anthropicComplete

end LlmProvider

/-- The settings of the language model. -/
structure LlmSettings where
  provider : Text
  apiKey : Text
  model : Text

/-- The client that the settings ask for. -/
def LlmSettings.chosen (settings : LlmSettings) : Option LlmProvider :=
  let p := asciiLower (strip (if settings.provider = [] then text "none" else settings.provider))
  if p = text "none" ∨ settings.apiKey = [] then none
  else if p = text "openai" then some .openai
  else if p = text "anthropic" then some .anthropic
  else none

/-- `model or _DEFAULT_..._MODEL`. -/
def LlmSettings.modelFor (settings : LlmSettings) (provider : LlmProvider) : Text :=
  if settings.model = [] then provider.defaultModel else settings.model

/-- A client of a model; `http` is what becomes of the POST of a prompt to it. -/
def LlmProvider.client (provider : LlmProvider) (loadsLimit : Nat) (model : Text)
    (http : LlmProvider → Text → Text → LlmAnswer) : LlmClient where
  provider := .ok provider.value
  model := .ok model
  complete prompt := some <$> provider.complete loadsLimit (http provider model prompt)

/-- `build_llm_client`. -/
def buildLlmClient (loadsLimit : Nat) (settings : LlmSettings)
    (http : LlmProvider → Text → Text → LlmAnswer) : Option LlmClient :=
  settings.chosen.map fun provider =>
    provider.client loadsLimit (settings.modelFor provider) http

/-- `MacroAgent(context=..., news_provider=..., llm_client=...)`; the provider of the news
returns a list. -/
def wiredMacroAgent (context : TickContext) (recentHeadlines : Text → List Text)
    (loadsLimit : Nat) (settings : LlmSettings)
    (http : LlmProvider → Text → Text → LlmAnswer) : MacroAgent where
  context := context
  news symbol := .ok (.ofList (recentHeadlines symbol))
  llm := buildLlmClient loadsLimit settings http
  historyWindow_ge := MacroAgent.two_le_window

/-! ### What a client says -/

/-- The body states the text: the content of the first choice, or the blocks of text in a row. -/
def LlmProvider.Reads : LlmProvider → Json → Text → Prop
  | openai, payload, said => ∃ top choice choices message,
      payload = .obj top ∧ Json.get? top (text "choices") = some (.arr (.obj choice :: choices)) ∧
        Json.get? choice (text "message") = some (.obj message) ∧
        Json.get? message (text "content") = some (.str said)
  | anthropic, payload, said => ∃ top content blocks texts,
      payload = .obj top ∧ Json.get? top (text "content") = some content ∧
        content.iterate = .ok blocks ∧ blocks.filterMap blockText? = texts.map .str ∧
        texts ≠ [] ∧ said = texts.flatten

/-- The answer is a success whose body states the text. -/
def LlmAnswer.Says (provider : LlmProvider) (loadsLimit : Nat) (answer : LlmAnswer)
    (said : Text) : Prop :=
  ∃ status body payload, answer = .response status (some body) ∧ status < 400 ∧
    Json.loads loadsLimit body = .ok payload ∧ provider.Reads payload said

theorem index_eq_ok_iff {v w : Json} {key : Text} :
    v.index key = .ok w ↔ ∃ pairs, v = .obj pairs ∧ Json.get? pairs key = some w := by
  cases v with
  | obj pairs =>
      rw [Json.index]
      cases hkey : Json.get? pairs key with
      | none => exact iff_of_false nofun fun ⟨_, h, hw⟩ => by cases h; rw [hkey] at hw; cases hw
      | some x =>
          constructor
          · intro h
            cases h
            exact ⟨pairs, rfl, hkey⟩
          · rintro ⟨_, ⟨⟩, hw⟩
            rw [hkey] at hw
            exact congrArg _ (Option.some.inj hw)
  | null | bool _ | int _ | float _ | str _ | arr _ =>
      exact iff_of_false nofun fun ⟨_, h, _⟩ => nomatch h

/-- A member that a first item has. -/
theorem firstItem_index_eq_ok_iff {v w : Json} {key : Text} :
    (firstItem v >>= fun item => item.index key) = .ok w ↔
      ∃ pairs items, v = .arr (.obj pairs :: items) ∧ Json.get? pairs key = some w := by
  have hchars (c : Nat) : ¬ (Json.str [c]).index key = .ok w := nofun
  cases v with
  | arr items =>
      cases items with
      | nil => exact iff_of_false nofun fun ⟨_, _, h, _⟩ => nomatch h
      | cons item items =>
          change item.index key = .ok w ↔ _
          rw [index_eq_ok_iff]
          constructor
          · rintro ⟨pairs, rfl, hw⟩
            exact ⟨pairs, items, rfl, hw⟩
          · rintro ⟨pairs, _, ⟨⟩, hw⟩
            exact ⟨pairs, rfl, hw⟩
  | str chars =>
      cases chars with
      | nil => exact iff_of_false nofun fun ⟨_, _, h, _⟩ => nomatch h
      | cons c chars => exact iff_of_false (hchars c) fun ⟨_, _, h, _⟩ => nomatch h
  | null | bool _ | int _ | float _ | obj _ =>
      exact iff_of_false nofun fun ⟨_, _, h, _⟩ => nomatch h

theorem choiceContent_eq_ok_iff {payload content : Json} :
    choiceContent payload = .ok content ↔ ∃ top choice choices message,
      payload = .obj top ∧ Json.get? top (text "choices") = some (.arr (.obj choice :: choices)) ∧
        Json.get? choice (text "message") = some (.obj message) ∧
        Json.get? message (text "content") = some content := by
  have hassoc : choiceContent payload = (payload.index (text "choices") >>= fun choices =>
      (firstItem choices >>= fun choice => choice.index (text "message")) >>= fun message =>
        message.index (text "content")) := by
    simp only [choiceContent, bind_assoc]
  rw [hassoc]
  simp only [bind_eq_ok_iff (x := payload.index _), bind_eq_ok_iff (b := content),
    firstItem_index_eq_ok_iff, index_eq_ok_iff]
  constructor
  · rintro ⟨_, ⟨top, rfl, htop⟩, _, ⟨choice, choices, rfl, hchoice⟩, message, rfl, hcontent⟩
    exact ⟨top, choice, choices, message, rfl, htop, hchoice, hcontent⟩
  · rintro ⟨top, choice, choices, message, rfl, htop, hchoice, hcontent⟩
    exact ⟨_, ⟨top, rfl, htop⟩, _, ⟨choice, choices, rfl, hchoice⟩, message, rfl, hcontent⟩

theorem read_eq_ok_iff {α : Type} {answer : LlmAnswer} {reading : Option Text → Except Exn α}
    {a : α} :
    answer.read reading = .ok a ↔
      ∃ status body, answer = .response status body ∧ status < 400 ∧ reading body = .ok a := by
  cases answer with
  | response status body =>
      rw [LlmAnswer.read]
      split
      · rename_i hstatus
        refine iff_of_false nofun ?_
        rintro ⟨_, _, ⟨⟩, hlt, -⟩
        exact absurd hlt (Nat.not_lt.mpr hstatus)
      · rename_i hstatus
        constructor
        · exact fun h => ⟨status, body, rfl, Nat.lt_of_not_le hstatus, h⟩
        · rintro ⟨_, _, ⟨⟩, -, h⟩
          exact h
  | timeout | networkError | raises e => exact iff_of_false nofun fun ⟨_, _, h, _⟩ => nomatch h

theorem decodeBody_eq_ok_iff {loadsLimit : Nat} {body : Option Text} {payload : Json} :
    decodeBody loadsLimit body = .ok payload ↔
      ∃ s, body = some s ∧ Json.loads loadsLimit s = .ok payload := by
  cases body with
  | none => exact iff_of_false nofun fun ⟨_, h, _⟩ => nomatch h
  | some s =>
      constructor
      · exact fun h => ⟨s, rfl, h⟩
      · rintro ⟨_, ⟨⟩, h⟩
        exact h

theorem joinParts_eq_ok_iff {parts : List Json} {said : Text} :
    joinParts parts = .ok said ↔
      ∃ texts : List Text, parts = texts.map .str ∧ said = texts.flatten := by
  have hparts (texts : List Text) :
      parts.mapM partText = .ok texts ↔ parts = texts.map .str := by
    rw [mapM_eq_ok_iff]
    constructor
    · intro h
      induction h with
      | nil => rfl
      | cons hpart _ ih =>
          rename_i part s _ _ _
          cases part with
          | str s' => rw [ih, List.map_cons, Except.ok.inj hpart]
          | null | bool _ | int _ | float _ | arr _ | obj _ => cases hpart
    · rintro rfl
      rw [List.forall₂_map_left_iff, List.forall₂_same]
      exact fun _ _ => rfl
  rw [joinParts, map_eq_ok_iff]
  constructor
  · rintro ⟨texts, htexts, rfl⟩
    exact ⟨texts, (hparts texts).mp htexts, rfl⟩
  · rintro ⟨texts, hmap, rfl⟩
    exact ⟨texts, (hparts texts).mpr hmap, rfl⟩

theorem contentBlocks_eq_ok_iff {payload : Json} {blocks : List Json} :
    contentBlocks payload = .ok blocks ↔ ∃ top content,
      payload = .obj top ∧ Json.get? top (text "content") = some content ∧
        content.iterate = .ok blocks := by
  simp only [contentBlocks, bind_eq_ok_iff, index_eq_ok_iff]
  constructor
  · rintro ⟨content, ⟨top, rfl, hcontent⟩, hblocks⟩
    exact ⟨top, content, rfl, hcontent, hblocks⟩
  · rintro ⟨top, content, rfl, hcontent, hblocks⟩
    exact ⟨content, ⟨top, rfl, hcontent⟩, hblocks⟩

theorem content_openai_eq_ok_iff {loadsLimit : Nat} {body : Option Text} {said : Text} :
    openAiContent loadsLimit body = .ok said ↔
      ∃ payload, decodeBody loadsLimit body = .ok payload ∧
        LlmProvider.openai.Reads payload said := by
  rw [openAiContent, bind_eq_ok_iff]
  constructor
  · rintro ⟨content, hcontent, hsaid⟩
    obtain ⟨payload, hpayload, hcontent⟩ :=
      bind_eq_ok_iff.mp (tryExcept_raise_eq_ok_iff.mp hcontent)
    cases content with
    | str s =>
        cases hsaid
        exact ⟨payload, hpayload, choiceContent_eq_ok_iff.mp hcontent⟩
    | null | bool _ | int _ | float _ | arr _ | obj _ => cases hsaid
  · rintro ⟨payload, hpayload, hreads⟩
    refine ⟨.str said, tryExcept_raise_eq_ok_iff.mpr ?_, rfl⟩
    exact bind_eq_ok_iff.mpr ⟨payload, hpayload, choiceContent_eq_ok_iff.mpr hreads⟩

theorem content_anthropic_eq_ok_iff {loadsLimit : Nat} {body : Option Text} {said : Text} :
    anthropicContent loadsLimit body = .ok said ↔
      ∃ payload, decodeBody loadsLimit body = .ok payload ∧
        LlmProvider.anthropic.Reads payload said := by
  rw [anthropicContent, bind_eq_ok_iff]
  constructor
  · rintro ⟨blocks, hblocks, hsaid⟩
    obtain ⟨payload, hpayload, hblocks⟩ :=
      bind_eq_ok_iff.mp (tryExcept_raise_eq_ok_iff.mp hblocks)
    obtain ⟨top, content, rfl, hcontent, hiterate⟩ := contentBlocks_eq_ok_iff.mp hblocks
    dsimp only at hsaid
    split at hsaid
    · cases hsaid
    · rename_i hparts
      obtain ⟨texts, htexts, rfl⟩ := joinParts_eq_ok_iff.mp hsaid
      refine ⟨_, hpayload, top, content, blocks, texts, rfl, hcontent, hiterate, htexts, ?_, rfl⟩
      rintro rfl
      exact hparts htexts
  · rintro ⟨_, hpayload, top, content, blocks, texts, rfl, hcontent, hiterate, htexts, hne, rfl⟩
    refine ⟨blocks, tryExcept_raise_eq_ok_iff.mpr (bind_eq_ok_iff.mpr ⟨_, hpayload, ?_⟩), ?_⟩
    · exact contentBlocks_eq_ok_iff.mpr ⟨top, content, rfl, hcontent, hiterate⟩
    · dsimp only
      rw [htexts, if_neg (mt List.map_eq_nil_iff.mp hne)]
      exact joinParts_eq_ok_iff.mpr ⟨texts, rfl, rfl⟩

/-- A client returns what a success states, and nothing else. -/
theorem complete_eq_ok_iff (provider : LlmProvider) (loadsLimit : Nat) (answer : LlmAnswer)
    (said : Text) :
    provider.complete loadsLimit answer = .ok said ↔ answer.Says provider loadsLimit said := by
  have hcontent (body : Option Text) : provider.content loadsLimit body = .ok said ↔
      ∃ payload, decodeBody loadsLimit body = .ok payload ∧ provider.Reads payload said := by
    cases provider with
    | openai => exact content_openai_eq_ok_iff
    | anthropic => exact content_anthropic_eq_ok_iff
  have hread : provider.complete loadsLimit answer = answer.read (provider.content loadsLimit) := by
    cases provider with
    | openai => rfl
    | anthropic => rfl
  rw [hread, read_eq_ok_iff]
  constructor
  · rintro ⟨status, body, rfl, hstatus, hbody⟩
    obtain ⟨payload, hpayload, hreads⟩ := (hcontent body).mp hbody
    obtain ⟨s, rfl, hloads⟩ := decodeBody_eq_ok_iff.mp hpayload
    exact ⟨status, s, payload, rfl, hstatus, hloads, hreads⟩
  · rintro ⟨status, s, payload, rfl, hstatus, hloads, hreads⟩
    exact ⟨status, some s, rfl, hstatus, (hcontent _).mpr ⟨payload, hloads, hreads⟩⟩

/-! ### The agent -/

theorem ofList_renders (headlines : List Text) : (Headlines.ofList headlines).Renders := by
  cases headlines with
  | nil => exact .inl rfl
  | cons headline headlines =>
      refine .inr ⟨rfl, _, rfl, fun item hitem => ?_⟩
      obtain ⟨s, -, rfl⟩ := List.mem_map.mp hitem
      exact ⟨s, rfl⟩

namespace MacroAgent

variable (a : MacroAgent) (pr : Json.Printing) (loadsLimit : Nat)

/-- An agent asks a client that never fails to say its name. -/
theorem consult_client (provider : LlmProvider) (model : Text)
    (http : LlmProvider → Text → Text → LlmAnswer) (prompt symbol : Text) (now : UtcTime) :
    ∃ signal, a.consult pr loadsLimit (provider.client loadsLimit model http) prompt symbol now =
        .ok signal ∧ signal.symbol = symbol ∧
      ((∃ said action q rationale, (http provider model prompt).Says provider loadsLimit said ∧
          KeepsContract pr loadsLimit said action q rationale ∧
          signal = a.vote symbol action (.finite q) (shorten rationale) now) ∨
        (∀ said action q rationale, (http provider model prompt).Says provider loadsLimit said →
          ¬ KeepsContract pr loadsLimit said action q rationale) ∧
          signal.action = .hold ∧ signal.confidence = 0) := by
  have hcomplete : (provider.client loadsLimit model http).complete prompt =
      some <$> provider.complete loadsLimit (http provider model prompt) := rfl
  rw [consult, hcomplete]
  cases hsaid : provider.complete loadsLimit (http provider model prompt) with
  | error e =>
      refine ⟨_, rfl, rfl, .inr ⟨?_, rfl, rfl⟩⟩
      intro said action q rationale hsays
      rw [(complete_eq_ok_iff provider loadsLimit _ said).mpr hsays] at hsaid
      cases hsaid
  | ok said =>
      have hsays := (complete_eq_ok_iff provider loadsLimit _ said).mp hsaid
      have hmap : (some <$> .ok said : Except Exn (Option Text)) = .ok (some said) := rfl
      rw [hmap]
      dsimp only
      cases hparse : a.parseSignal pr loadsLimit symbol (some said) now with
      | ok signal =>
          obtain ⟨action, q, rationale, hkeeps, rfl⟩ :=
            (a.parseSignal_eq_ok_iff pr loadsLimit).mp hparse
          exact ⟨_, rfl, rfl, .inl ⟨said, action, q, rationale, hsays, hkeeps, rfl⟩⟩
      | error e =>
          refine ⟨_, rfl, rfl, .inr ⟨?_, rfl, rfl⟩⟩
          intro said' action q rationale hsays' hkeeps
          have hsame := (complete_eq_ok_iff provider loadsLimit _ said').mpr hsays'
          rw [hsaid] at hsame
          rw [Except.ok.inj hsame] at hparse
          have hok : a.parseSignal pr loadsLimit symbol (some said') now =
              .ok (a.vote symbol action (.finite q) (shorten rationale) now) :=
            (a.parseSignal_eq_ok_iff pr loadsLimit).mpr ⟨action, q, rationale, hkeeps, rfl⟩
          rw [hok] at hparse
          cases hparse

end MacroAgent

end NexusBackend
