import NexusBackend.Library.JsonDecoded
import NexusBackend.Trading.MacroAgent

/-!
What `MacroAgent.evaluate` promises: a signal for the symbol, and a HOLD without confidence
where a step has failed or the answer does not keep its contract. The prompt is built, and
the records are written, outside the handlers.
-/
namespace NexusBackend

open Python

/-! ### The contract of an answer -/

/-- A number that is not a Boolean. -/
def IsPlainNumber : Json → Prop
  | .int _ | .float _ => True
  | _ => False

/-- The fields state an action, a confidence and a rationale. -/
structure StatesVote (pr : Json.Printing) (pairs : List (Text × Json)) (action : Action) (q : ℚ)
    (rationale : Text) : Prop where
  action : ∃ v s, Json.get? pairs (text "action") = some v ∧ v.toStr pr = .ok s ∧
    asciiLower (strip s) = action.value
  confidence : ∃ v, Json.get? pairs (text "confidence") = some v ∧ IsPlainNumber v ∧
    v.toFloat = .ok (.finite q)
  rationale : ((Json.get? pairs (text "rationale")).getD (.str [])).toStr pr = .ok rationale

/-- The answer is one object, after fences and prose, that states a vote. -/
def KeepsContract (pr : Json.Printing) (loadsLimit : Nat) (raw : Text) (action : Action) (q : ℚ)
    (rationale : Text) : Prop :=
  ∃ body pairs, extractJsonBlock raw = .ok body ∧
    Json.loads loadsLimit body = .ok (.obj pairs) ∧ StatesVote pr pairs action q rationale

theorem tryExcept_raise_eq_ok_iff {α : Type} {x : Except Exn α} {classes : List ExnKind}
    {handler : Exn → Exn} {a : α} :
    tryExcept x classes (fun e => .error (handler e)) = .ok a ↔ x = .ok a := by
  cases x with
  | ok b => rfl
  | error e =>
      refine iff_of_false (fun h => ?_) nofun
      rw [tryExcept] at h
      split at h <;> cases h

theorem readPayload_eq_ok_iff {loadsLimit : Nat} {body : Text} {pairs : List (Text × Json)} :
    readPayload loadsLimit body = .ok pairs ↔
      Json.loads loadsLimit body = .ok (.obj pairs) ∧
        (∃ v, Json.get? pairs (text "action") = some v) ∧
        ∃ v, Json.get? pairs (text "confidence") = some v := by
  rw [readPayload, bind_eq_ok_iff]
  constructor
  · rintro ⟨payload, hloads, h⟩
    have hok := tryExcept_raise_eq_ok_iff.mp hloads
    cases payload with
    | obj pairs' =>
        dsimp only at h
        split at h
        · cases h
        · rename_i hnone
          obtain rfl := Except.ok.inj h
          simp only [List.find?_eq_none, List.mem_cons, List.not_mem_nil, or_false,
            forall_eq_or_imp, forall_eq, Option.isNone_iff_eq_none,
            ← ne_eq, Option.ne_none_iff_exists'] at hnone
          exact ⟨hok, hnone⟩
    | _ => cases h
  · rintro ⟨hloads, ⟨v, hv⟩, w, hw⟩
    refine ⟨_, tryExcept_raise_eq_ok_iff.mpr hloads, ?_⟩
    simp only [List.find?_cons, List.find?_nil, hv, hw]
    rfl

theorem Action.ofValue_eq_ok_iff {v : Text} {action : Action} :
    Action.ofValue v = .ok action ↔ v = action.value := by
  constructor
  · intro h
    rw [Action.ofValue] at h
    split_ifs at h with hbuy hhold hsell
    · cases h
      exact hbuy
    · cases h
      exact hhold
    · cases h
      exact hsell
    · cases h
  · rintro rfl
    cases action <;> decide

theorem readAction_eq_ok_iff {pr : Json.Printing} {v : Json} {action : Action} :
    readAction pr v = .ok action ↔
      ∃ s, v.toStr pr = .ok s ∧ asciiLower (strip s) = action.value := by
  rw [readAction, bind_eq_ok_iff]
  exact exists_congr fun s => and_congr_right fun _ =>
    tryExcept_raise_eq_ok_iff.trans Action.ofValue_eq_ok_iff

theorem floatOfInt_finite {n : Int} {x : Python.Float} (h : floatOfInt n = .ok x) :
    ∃ q, x = .finite q ∧ Float.ofRat n = .finite q := by
  rw [floatOfInt] at h
  cases hread : Float.ofRat n with
  | finite q =>
      rw [hread] at h
      exact ⟨q, (Except.ok.inj h).symm, rfl⟩
  | inf negative =>
      rw [hread] at h
      cases h
  | nan => exact absurd hread (ofRat_ne_nan _)

/-- What is shown of a number that a float can hold reads as a finite decimal. -/
theorem decimal_of_plainNumber (pr : Json.Printing) {v : Json} (hv : v.Binary)
    (hplain : IsPlainNumber v) {q : ℚ} (hq : v.toFloat = .ok (.finite q)) :
    ∃ d, Decimal.ofText? (v.strText pr.printable) = some d ∧ d.isFinite = true := by
  cases v with
  | int n =>
      obtain ⟨q', -, hn⟩ := floatOfInt_finite hq
      exact Decimal.ofText?_intText (lt_of_ofRat_finite hn)
  | float y =>
      cases hq
      obtain ⟨d, hd, hfinite, -⟩ := Decimal.ofText?_text (hv q rfl)
      exact ⟨d, hd, hfinite⟩
  | _ => exact hplain.elim

/-- A number that is shown as a finite decimal is plain and finite. -/
theorem plainNumber_of_decimal {printable : Nat → Bool} {v : Json} {d : Decimal}
    (hnumber : ¬ isNumber v = false) (hd : Decimal.ofText? (v.strText printable) = some d)
    (hfinite : ¬ d.isFinite = false) {x : Python.Float} (h : v.toFloat = .ok x) :
    IsPlainNumber v ∧ ∃ q, x = .finite q ∧ v.toFloat = .ok (.finite q) := by
  cases v with
  | int n =>
      obtain ⟨q, rfl, -⟩ := floatOfInt_finite h
      exact ⟨trivial, q, rfl, h⟩
  | float y =>
      cases y with
      | finite q => exact ⟨trivial, q, (Except.ok.inj h).symm, rfl⟩
      | inf negative =>
          have hword : Decimal.ofText? (Float.text (.inf negative)) =
              some (.infinity negative) := by
            cases negative <;> decide
          cases hword.symm.trans hd
          exact absurd rfl hfinite
      | nan =>
          have hword : Decimal.ofText? (Float.text .nan) = some (.nan false) := by decide
          cases hword.symm.trans hd
          exact absurd rfl hfinite
  | bool b =>
      have hword : Decimal.ofText? (if b then text "True" else text "False") = none := by
        cases b <;> decide
      cases hword.symm.trans hd
  | _ => exact absurd rfl hnumber

/-- The checks of a decoded confidence leave the numbers that a float can hold. -/
theorem readConfidence_eq_ok_iff {pr : Json.Printing} {v : Json} (hv : v.Binary)
    {x : Python.Float} :
    readConfidence pr v = .ok x ↔
      IsPlainNumber v ∧ ∃ q, x = .finite q ∧ v.toFloat = .ok (.finite q) := by
  constructor
  · intro h
    rw [readConfidence] at h
    split at h
    · cases h
    · rename_i hnumber
      split at h
      · cases h
      · rename_i d hd
        split at h
        · cases h
        · rename_i hfinite
          exact plainNumber_of_decimal hnumber hd hfinite h
  · rintro ⟨hplain, q, rfl, hq⟩
    have hnumber : isNumber v = true := by
      cases v with
      | int n => rfl
      | float y => rfl
      | _ => exact hplain.elim
    obtain ⟨d, hd, hfinite⟩ := decimal_of_plainNumber pr hv hplain hq
    rw [readConfidence, hnumber, if_neg Bool.true_eq_false.mp, hd]
    dsimp only
    rw [hfinite, if_neg Bool.true_eq_false.mp, hq]

theorem extractJsonBlock_blank {raw body : Text} (h : extractJsonBlock raw = .ok body) :
    strip raw ≠ [] := by
  intro hblank
  rw [extractJsonBlock, hblank] at h
  cases h

namespace MacroAgent

variable (a : MacroAgent) (pr : Json.Printing) (loadsLimit : Nat)

/-- The parser returns exactly on the answers that keep the contract. -/
theorem parseSignal_eq_ok_iff {symbol raw : Text} {now : UtcTime} {signal : AgentSignal} :
    a.parseSignal pr loadsLimit symbol (some raw) now = .ok signal ↔
      ∃ action q rationale, KeepsContract pr loadsLimit raw action q rationale ∧
        signal = a.vote symbol action (.finite q) (shorten rationale) now := by
  constructor
  · intro h
    rw [parseSignal] at h
    split at h
    · cases h
    · rename_i raw' hraw
      obtain rfl := Option.some.inj (Option.filter_eq_some_iff.mp hraw).1
      obtain ⟨body, hbody, h⟩ := bind_eq_ok_iff.mp h
      obtain ⟨pairs, hpairs, h⟩ := bind_eq_ok_iff.mp h
      obtain ⟨hloads, ⟨v, hv⟩, w, hw⟩ := readPayload_eq_ok_iff.mp hpairs
      rw [hv, hw] at h
      obtain ⟨action, haction, h⟩ := bind_eq_ok_iff.mp h
      obtain ⟨x, hx, h⟩ := bind_eq_ok_iff.mp h
      obtain ⟨short, hshort, h⟩ := bind_eq_ok_iff.mp h
      obtain ⟨s, hs, hvalue⟩ := readAction_eq_ok_iff.mp haction
      obtain ⟨hplain, q, rfl, hq⟩ :=
        (readConfidence_eq_ok_iff ((Json.loads_binary hloads).of_get? hw)).mp hx
      obtain ⟨rationale, hrationale, rfl⟩ := map_eq_ok_iff.mp hshort
      exact ⟨action, q, rationale, ⟨body, pairs, hbody, hloads, ⟨v, s, hv, hs, hvalue⟩,
        ⟨w, hw, hplain, hq⟩, hrationale⟩, (Except.ok.inj h).symm⟩
  · rintro ⟨action, q, rationale, ⟨body, pairs, hbody, hloads, ⟨v, s, hv, hs, hvalue⟩,
      ⟨w, hw, hplain, hq⟩, hrationale⟩, rfl⟩
    have hraw : (some raw).filter (fun s => strip s ≠ []) = some raw :=
      Option.filter_eq_some_iff.mpr ⟨rfl, decide_eq_true (extractJsonBlock_blank hbody)⟩
    have haction := readAction_eq_ok_iff.mpr ⟨s, hs, hvalue⟩
    have hconfidence : readConfidence pr w = .ok (.finite q) :=
      (readConfidence_eq_ok_iff ((Json.loads_binary hloads).of_get? hw)).mpr ⟨hplain, q, rfl, hq⟩
    rw [parseSignal, hraw]
    dsimp only
    rw [hbody, ok_bind, readPayload_eq_ok_iff.mpr ⟨hloads, ⟨v, hv⟩, w, hw⟩, ok_bind, hv, hw,
      Option.getD_some, Option.getD_some, haction, ok_bind, hconfidence, ok_bind, readRationale,
      hrationale]
    rfl

end MacroAgent

/-! ### The steps outside the handlers -/

/-- There are no headlines, or each of them can be shown. -/
def Headlines.Renders (headlines : Headlines) : Prop :=
  headlines.truthy = .ok false ∨ headlines.truthy = .ok true ∧
    ∃ items, headlines.items = .ok items ∧ ∀ item ∈ items, ∃ s, item = .ok s

theorem headlinesSection_ok_iff (headlines : Headlines) :
    (∃ s, headlinesSection headlines = .ok s) ↔ headlines.Renders := by
  constructor
  · rintro ⟨s, h⟩
    obtain ⟨any, hany, h⟩ := bind_eq_ok_iff.mp h
    cases any with
    | false => exact .inl hany
    | true =>
        obtain ⟨items, hitems, h⟩ := bind_eq_ok_iff.mp h
        obtain ⟨shown, hshown, -⟩ := bind_eq_ok_iff.mp h
        refine .inr ⟨hany, items, hitems, fun item hitem => ?_⟩
        obtain ⟨s, -, hs⟩ := of_mapM hshown hitem
        exact ⟨s, hs⟩
  · rintro (hnone | ⟨hany, items, hitems, hshown⟩)
    · rw [headlinesSection, hnone]
      exact ⟨_, rfl⟩
    · obtain ⟨shown, hshown⟩ := mapM_ok (f := id) hshown
      rw [headlinesSection, hany, ok_bind, if_pos rfl, hitems, ok_bind, hshown]
      exact ⟨_, rfl⟩

theorem renderPrompt_ok_iff (symbol : Text) (prices : List Decimal) (headlines : Headlines) :
    (∃ prompt, renderPrompt symbol prices headlines = .ok prompt) ↔ headlines.Renders := by
  rw [← headlinesSection_ok_iff]
  constructor
  · rintro ⟨prompt, h⟩
    obtain ⟨s, hs, -⟩ := bind_eq_ok_iff.mp h
    exact ⟨s, hs⟩
  · rintro ⟨s, hs⟩
    rw [renderPrompt, hs]
    exact ⟨_, rfl⟩

/-- What the records read of the client, for the prompt and for a failure, can be read. -/
structure LlmClient.Readable (pr : Json.Printing) (loadsLimit : Nat) (llm : LlmClient)
    (prompt : Text) : Prop where
  prompted : ∃ any, llm.truthy = .ok any ∧ (any = true → ∃ s, llm.provider = .ok s)
  called : ∀ e, llm.complete prompt = .error e →
    (∃ s, llm.provider = .ok s) ∧ ∃ s, llm.model = .ok s
  parsed : ∀ raw, llm.complete prompt = .ok raw →
    (¬ ∃ s action q rationale, raw = some s ∧
      KeepsContract pr loadsLimit s action q rationale) → ∃ s, llm.provider = .ok s

namespace MacroAgent

variable (a : MacroAgent) (pr : Json.Printing) (loadsLimit : Nat)

/-- What `evaluate` promises of a signal. -/
structure Promised (symbol : Text) (now : UtcTime) (signal : AgentSignal) : Prop where
  asked : signal.symbol = symbol
  confidence : 0 ≤ signal.confidence ∧ signal.confidence ≤ 1
  fallback : (signal.action = .hold ∧ signal.confidence = 0) ∨
    ∃ llm prompt raw action q rationale, a.llm = some llm ∧ a.buildPrompt symbol = .ok prompt ∧
      llm.complete prompt = .ok (some raw) ∧
      KeepsContract pr loadsLimit raw action q rationale ∧
      signal = a.vote symbol action (.finite q) (shorten rationale) now

/-- The news provider answers with headlines that can be shown, and what the records read of
the client can be read. -/
def Undisturbed (symbol : Text) : Prop :=
  ∃ headlines, a.news symbol = .ok headlines ∧ headlines.Renders ∧
    ∀ llm, a.llm = some llm → ∀ prompt,
      renderPrompt symbol (a.context.recentPrices symbol (some a.historyWindow)) headlines =
        .ok prompt → llm.Readable pr loadsLimit prompt

theorem hold_promised (symbol rationale : Text) (now : UtcTime) :
    a.Promised pr loadsLimit symbol now (a.hold symbol rationale now) :=
  ⟨rfl, (a.hold symbol rationale now).confidence_range, .inl ⟨rfl, rfl⟩⟩

theorem callFailed_eq_ok_iff {llm : LlmClient} {symbol : Text} {e : Exn} {now : UtcTime}
    {signal : AgentSignal} :
    a.callFailed llm symbol e now = .ok signal ↔
      ((∃ s, llm.provider = .ok s) ∧ ∃ s, llm.model = .ok s) ∧ signal = a.hold symbol
        (text "LLM call failed (" ++ e.kind.name ++ text "): falling back to HOLD") now := by
  constructor
  · intro h
    obtain ⟨provider, hprovider, h⟩ := bind_eq_ok_iff.mp h
    obtain ⟨model, hmodel, h⟩ := bind_eq_ok_iff.mp h
    exact ⟨⟨⟨provider, hprovider⟩, model, hmodel⟩, (Except.ok.inj h).symm⟩
  · rintro ⟨⟨⟨provider, hprovider⟩, model, hmodel⟩, rfl⟩
    rw [callFailed, hprovider, ok_bind, hmodel]
    rfl

theorem parseFailed_eq_ok_iff {llm : LlmClient} {symbol : Text} {e : Exn} {now : UtcTime}
    {signal : AgentSignal} :
    a.parseFailed llm symbol e now = .ok signal ↔
      (∃ s, llm.provider = .ok s) ∧ signal = a.hold symbol
        (text "LLM response unparseable (" ++ e.kind.name ++ text "): falling back to HOLD")
        now := by
  constructor
  · intro h
    obtain ⟨provider, hprovider, h⟩ := bind_eq_ok_iff.mp h
    exact ⟨⟨provider, hprovider⟩, (Except.ok.inj h).symm⟩
  · rintro ⟨⟨provider, hprovider⟩, rfl⟩
    rw [parseFailed, hprovider]
    rfl

theorem parseSignal_none (symbol : Text) (now : UtcTime) :
    a.parseSignal pr loadsLimit symbol none now =
      raise .valueError (text "empty LLM response") := rfl

/-- Where the call returns, the parser returns on the answers that keep the contract. -/
theorem parseSignal_ok_iff (symbol : Text) (raw : Option Text) (now : UtcTime) :
    (∃ signal, a.parseSignal pr loadsLimit symbol raw now = .ok signal) ↔
      ∃ s action q rationale, raw = some s ∧
        KeepsContract pr loadsLimit s action q rationale := by
  cases raw with
  | none =>
      rw [parseSignal_none]
      refine iff_of_false ?_ ?_
      · rintro ⟨signal, h⟩
        cases h
      · rintro ⟨s, action, q, rationale, h, -⟩
        cases h
  | some raw =>
      simp only [parseSignal_eq_ok_iff, Option.some.injEq]
      constructor
      · rintro ⟨signal, action, q, rationale, hkeeps, -⟩
        exact ⟨raw, action, q, rationale, rfl, hkeeps⟩
      · rintro ⟨s, action, q, rationale, rfl, hkeeps⟩
        exact ⟨_, action, q, rationale, hkeeps, rfl⟩

theorem logPrompt_ok_iff : (∃ s, a.logPrompt = .ok s) ↔
    ∀ llm, a.llm = some llm →
      ∃ any, llm.truthy = .ok any ∧ (any = true → ∃ s, llm.provider = .ok s) := by
  rw [logPrompt]
  cases a.llm with
  | none =>
      refine iff_of_true ⟨text "none", rfl⟩ ?_
      intro llm h
      cases h
  | some llm =>
      constructor
      · rintro ⟨s, h⟩ llm' heq
        obtain rfl := Option.some.inj heq
        obtain ⟨any, hany, h⟩ := bind_eq_ok_iff.mp h
        refine ⟨any, hany, fun htrue => ?_⟩
        rw [htrue, if_pos rfl] at h
        exact ⟨s, h⟩
      · intro h
        obtain ⟨any, hany, hprovider⟩ := h llm rfl
        dsimp only
        rw [hany, ok_bind]
        cases any with
        | false => exact ⟨text "none", rfl⟩
        | true => exact hprovider rfl

theorem consult_ok_iff (llm : LlmClient) (prompt symbol : Text) (now : UtcTime) :
    (∃ signal, a.consult pr loadsLimit llm prompt symbol now = .ok signal) ↔
      (∀ e, llm.complete prompt = .error e →
        (∃ s, llm.provider = .ok s) ∧ ∃ s, llm.model = .ok s) ∧
      ∀ raw, llm.complete prompt = .ok raw →
        (¬ ∃ s action q rationale, raw = some s ∧
          KeepsContract pr loadsLimit s action q rationale) → ∃ s, llm.provider = .ok s := by
  rw [consult]
  cases llm.complete prompt with
  | error e =>
      simp only [callFailed_eq_ok_iff]
      constructor
      · rintro ⟨signal, h, -⟩
        exact ⟨fun _ _ => h, nofun⟩
      · intro h
        exact ⟨_, h.1 e rfl, rfl⟩
  | ok raw =>
      have hparse := a.parseSignal_ok_iff pr loadsLimit symbol raw now
      dsimp only
      cases hsignal : a.parseSignal pr loadsLimit symbol raw now with
      | ok signal =>
          refine iff_of_true ⟨signal, rfl⟩ ⟨nofun, fun raw' heq hno => ?_⟩
          obtain rfl := Except.ok.inj heq
          exact absurd (hparse.mp ⟨signal, hsignal⟩) hno
      | error e =>
          simp only [parseFailed_eq_ok_iff]
          constructor
          · rintro ⟨signal, h, -⟩
            exact ⟨nofun, fun _ _ _ => h⟩
          · intro h
            refine ⟨_, h.2 raw rfl ?_, rfl⟩
            rw [← hparse, hsignal]
            rintro ⟨signal, hok⟩
            cases hok

theorem consult_promised {llm : LlmClient} {prompt symbol : Text} {now : UtcTime}
    {signal : AgentSignal} (hllm : a.llm = some llm) (hprompt : a.buildPrompt symbol = .ok prompt)
    (h : a.consult pr loadsLimit llm prompt symbol now = .ok signal) :
    a.Promised pr loadsLimit symbol now signal := by
  rw [consult] at h
  cases hcall : llm.complete prompt with
  | error e =>
      rw [hcall] at h
      obtain ⟨-, rfl⟩ := a.callFailed_eq_ok_iff.mp h
      exact a.hold_promised pr loadsLimit symbol _ now
  | ok raw =>
      rw [hcall] at h
      dsimp only at h
      cases hparse : a.parseSignal pr loadsLimit symbol raw now with
      | error e =>
          rw [hparse] at h
          obtain ⟨-, rfl⟩ := a.parseFailed_eq_ok_iff.mp h
          exact a.hold_promised pr loadsLimit symbol _ now
      | ok signal' =>
          rw [hparse] at h
          obtain rfl := Except.ok.inj h
          cases raw with
          | none => cases hparse
          | some raw =>
              obtain ⟨action, q, rationale, hkeeps, rfl⟩ :=
                (a.parseSignal_eq_ok_iff pr loadsLimit).mp hparse
              exact ⟨rfl, (a.vote symbol action (.finite q) _ now).confidence_range,
                .inr ⟨llm, prompt, raw, action, q, rationale, hllm, hprompt, hcall, hkeeps, rfl⟩⟩

theorem evaluate_promised {symbol : Text} {now : UtcTime} {signal : AgentSignal}
    (h : a.evaluate pr loadsLimit symbol now = .ok signal) :
    a.Promised pr loadsLimit symbol now signal := by
  obtain ⟨prompt, hprompt, h⟩ := bind_eq_ok_iff.mp h
  obtain ⟨_, -, h⟩ := bind_eq_ok_iff.mp h
  cases hllm : a.llm with
  | none =>
      rw [hllm] at h
      obtain rfl := Except.ok.inj h
      exact a.hold_promised pr loadsLimit symbol _ now
  | some llm =>
      rw [hllm] at h
      exact a.consult_promised pr loadsLimit hllm hprompt h

theorem evaluate_ok_iff (symbol : Text) (now : UtcTime) :
    (∃ signal, a.evaluate pr loadsLimit symbol now = .ok signal) ↔
      ∃ prompt, a.buildPrompt symbol = .ok prompt ∧
        ∀ llm, a.llm = some llm → llm.Readable pr loadsLimit prompt := by
  constructor
  · rintro ⟨signal, h⟩
    obtain ⟨prompt, hprompt, h⟩ := bind_eq_ok_iff.mp h
    obtain ⟨log, hlog, h⟩ := bind_eq_ok_iff.mp h
    refine ⟨prompt, hprompt, fun llm hllm => ?_⟩
    rw [hllm] at h
    obtain ⟨hcalled, hparsed⟩ := (a.consult_ok_iff pr loadsLimit llm prompt symbol now).mp ⟨_, h⟩
    exact ⟨a.logPrompt_ok_iff.mp ⟨log, hlog⟩ llm hllm, hcalled, hparsed⟩
  · rintro ⟨prompt, hprompt, hreadable⟩
    obtain ⟨log, hlog⟩ := a.logPrompt_ok_iff.mpr fun llm hllm => (hreadable llm hllm).prompted
    rw [evaluate, hprompt, ok_bind, hlog, ok_bind]
    cases hllm : a.llm with
    | none => exact ⟨_, rfl⟩
    | some llm =>
        have h := hreadable llm hllm
        exact (a.consult_ok_iff pr loadsLimit llm prompt symbol now).mpr ⟨h.called, h.parsed⟩

theorem two_le_maxWindow : 2 ≤ 256 := by decide

theorem two_le_window : (2 : Int) ≤ 30 := by decide

/-- An agent whose news provider has lost its connection. -/
def withoutNews : MacroAgent where
  context := ⟨256, ∅, two_le_maxWindow⟩
  news := fun _ => raise .osError
  historyWindow_ge := two_le_window

end MacroAgent
end NexusBackend
