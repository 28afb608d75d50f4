import NexusBackend.Library.FloatArithmetic
import NexusBackend.Library.JsonText
import NexusBackend.Trading.Context
import NexusBackend.Trading.Models

/-!
`MacroAgent`: the prompt for a language model, and the signal that its answer is read as.

A news provider and a client of a language model are whatever they do when they are used:
what they return or raise, also where an attribute is read. Log records are left out, with
the message of the JSON reader that only they show; reading the attributes they carry is not.
-/
namespace NexusBackend

open Python

/-! ### The prompt -/

/-- Commas between groups of three digits, the digits in reverse. -/
def groupReversed : Text → Text
  | a :: b :: c :: d :: ds => a :: b :: c :: 44 :: groupReversed (d :: ds)
  | ds => ds

/-- `f"{x:,.2f}"`. -/
def amountText : Python.Float → Text
  | .finite q =>
      let body := fixedText 2 |q|
      (if q < 0 then [45] else []) ++
        (groupReversed (body.takeWhile (· ≠ 46)).reverse).reverse ++ body.dropWhile (· ≠ 46)
  | x => x.text

/-- `f"{x:+.2f}"`. -/
def signedPercent : Python.Float → Text
  | .finite q => (if q < 0 then [] else [43]) ++ fixedText 2 q
  | .inf negative => if negative then text "-inf" else text "+inf"
  | .nan => text "+nan"

/-- `min` and `max` of floats: of equals, the first. -/
def minFloat (x : Python.Float) (xs : List Python.Float) : Python.Float :=
  xs.foldl (fun low y => if y.lt low then y else low) x

def maxFloat (x : Python.Float) (xs : List Python.Float) : Python.Float :=
  xs.foldl (fun high y => if high.lt y then y else high) x

/-- The net change of a window in percent. -/
def netChange (first current : Python.Float) : Python.Float :=
  if (Float.finite 0).lt first then ((current.sub first).div first).mul (.finite 100)
  else .finite 0

def priceSection (prices : List Decimal) : Text :=
  match prices.map Decimal.toFloat with
  | [] => text "Current price: (no recent ticks in window)"
  | first :: rest =>
      let current := rest.getLast?.getD first
      text "Current price: " ++ amountText current ++ text " KRW\nWindow: " ++
        natText (rest.length + 1) ++ text " ticks, range " ++ amountText (minFloat first rest) ++
        text " → " ++ amountText (maxFloat first rest) ++ text ", net change " ++
        signedPercent (netChange first current) ++ text "%"

/-- What a news provider returns: its truth, and its items, each as an f-string shows it. -/
structure Headlines where
  truthy : Except Exn Bool
  items : Except Exn (List (Except Exn Text))

def Headlines.ofList (headlines : List Text) : Headlines where
  truthy := .ok (headlines ≠ [])
  items := .ok (headlines.map .ok)

def headlinesSection (headlines : Headlines) : Except Exn Text := do
  if ← headlines.truthy then
    let shown ← (← headlines.items).mapM id
    return join 10 (shown.map (text "  - " ++ ·))
  else return text "  (no headlines)"

/-- `_render_prompt`. -/
def renderPrompt (symbol : Text) (prices : List Decimal) (headlines : Headlines) :
    Except Exn Text := do
  let news ← headlinesSection headlines
  return join 10 [
    text "[NEXUS-MACRO-PROMPT v1]",
    text "You are a financial sentiment analyst for a KRX-listed equity. Your output",
    text "will be parsed by automated trading code; respond ONLY with the exact JSON",
    text "shape specified at the bottom of this prompt.",
    [],
    text "SYMBOL: " ++ symbol,
    [],
    text "PRICE CONTEXT:",
    priceSection prices,
    [],
    text "RECENT NEWS:",
    news,
    [],
    text "INSTRUCTIONS:",
    text "Weigh the price action and the news together. Confidence MUST reflect your",
    text "own certainty in the call (not the strength of the signal); weak evidence",
    text "requires low confidence even if the direction feels clear. Return HOLD with",
    text "low confidence whenever evidence is mixed or thin.",
    [],
    text "RESPONSE FORMAT (strict JSON, no surrounding text):",
    text "\x7b\"action\": \"buy\" | \"hold\" | \"sell\", \"confidence\": <0.0-1.0>, " ++
      text "\"rationale\": \"<one sentence>\"\x7d",
    []]

/-! ### The answer -/

/-- `Action(value)`. -/
def Action.ofValue (v : Text) : Except Exn Action :=
  if v = Action.buy.value then .ok .buy
  else if v = Action.hold.value then .ok .hold
  else if v = Action.sell.value then .ok .sell
  else raise .valueError

def fence : Text := text "```"

/-- The text between fences, where it opens with one. -/
def unfence (s : Text) : Text :=
  if startsWith s fence then
    let s := if 10 ∈ s then (s.dropWhile (· ≠ 10)).drop 1 else s
    strip (if endsWith (rstrip s) fence then (rstrip s).rdrop 3 else s)
  else s

/-- The scan for the brace that closes the first one. -/
def closeBraces : Nat → Text → Option Text
  | _, [] => none
  | depth, c :: s =>
      if c = 123 then (c :: ·) <$> closeBraces (depth + 1) s
      else if c = 125 then
        if depth - 1 = 0 then some [c] else (c :: ·) <$> closeBraces (depth - 1) s
      else (c :: ·) <$> closeBraces depth s

def foundBlock : Option Text → Except Exn Text
  | some block => .ok block
  | none => raise .valueError (text "unbalanced braces in LLM response")

/-- `_extract_json_block`. -/
def extractJsonBlock (raw : Text) : Except Exn Text :=
  let s := unfence (strip raw)
  if (lstrip s).head? = some 91 then
    raise .valueError (text "top-level JSON must be object, got array")
  else
    match s.dropWhile (· ≠ 123) with
    | [] => raise .valueError (text "no '\x7b' in LLM response")
    | c :: rest => foundBlock (closeBraces 0 (c :: rest))

/-- `type(v).__name__`. -/
def typeName : Json → Text
  | .null => text "NoneType"
  | .bool _ => text "bool"
  | .int _ => text "int"
  | .float _ => text "float"
  | .str _ => text "str"
  | .arr _ => text "list"
  | .obj _ => text "dict"

/-- The fields of the answer, where it is an object that has them. -/
def readPayload (loadsLimit : Nat) (body : Text) : Except Exn (List (Text × Json)) := do
  let payload ← tryExcept (Json.loads loadsLimit body) [.jsonDecodeError] fun e =>
    raise .valueError (text "not valid JSON: " ++ e.message)
  match payload with
  | .obj pairs =>
      match [text "action", text "confidence"].find? fun key =>
          (Json.get? pairs key).isNone with
      | some key => raise .valueError (text "missing required field: '" ++ key ++ text "'")
      | none => return pairs
  | v => raise .valueError (text "top-level JSON must be object, got " ++ typeName v)

def readAction (pr : Json.Printing) (v : Json) : Except Exn Action := do
  let raw := asciiLower (strip (← v.toStr pr))
  tryExcept (Action.ofValue raw) [.valueError] fun _ =>
    raise .valueError (text "invalid action " ++ reprText pr.printable raw ++
      text " (must be buy/hold/sell)")

/-- `max(0.0, min(1.0, x))`. -/
def clampUnit : Python.Float → ℚ
  | .finite q => max 0 (min 1 q)
  | .inf negative => if negative then 0 else 1
  | .nan => 1

theorem clampUnit_range (x : Python.Float) : 0 ≤ clampUnit x ∧ clampUnit x ≤ 1 := by
  cases x with
  | finite q => exact ⟨le_max_left _ _, max_le zero_le_one (min_le_left _ _)⟩
  | inf negative => cases negative <;> decide
  | nan => exact one_confidence

/-- `isinstance(v, (int, float))`. -/
def isNumber : Json → Bool
  | .bool _ | .int _ | .float _ => true
  | _ => false

def readConfidence (pr : Json.Printing) (v : Json) : Except Exn Python.Float :=
  if isNumber v = false then
    raise .valueError (text "confidence must be number, got " ++ typeName v)
  else
    match Decimal.ofText? (v.strText pr.printable) with
    | none => raise .valueError (text "confidence not numeric: " ++ v.repr pr.printable)
    | some d =>
        if d.isFinite = false then
          raise .valueError (text "confidence non-finite: " ++ v.repr pr.printable)
        else v.toFloat

def rationaleMaxChars : Nat := 500

/-- The rationale without white space around it, cut after 500 characters. -/
def shorten (rationale : Text) : Text :=
  let s := strip rationale
  if rationaleMaxChars < s.length then s.take rationaleMaxChars ++ text "…" else s

def readRationale (pr : Json.Printing) (v : Option Json) : Except Exn Text :=
  shorten <$> (v.getD (.str [])).toStr pr

/-! ### The agent -/

/-- A client of a language model: its truth, its attributes, and its answer to a prompt,
which may be no text. -/
structure LlmClient where
  truthy : Except Exn Bool := .ok true
  provider : Except Exn Text
  model : Except Exn Text
  complete : Text → Except Exn (Option Text)

structure MacroAgent where
  agentId : Text := text "macro.llm"
  context : TickContext
  news : Text → Except Exn Headlines
  llm : Option LlmClient := none
  historyWindow : Int := 30
  historyWindow_ge : 2 ≤ historyWindow

namespace MacroAgent

def make (agentId : Text) (context : TickContext) (news : Text → Except Exn Headlines)
    (llm : Option LlmClient) (historyWindow : Int) : Except Exn MacroAgent :=
  if h : 2 ≤ historyWindow then .ok ⟨agentId, context, news, llm, historyWindow, h⟩
  else raise .valueError (text "history_window must be >= 2, got " ++ intText historyWindow)

variable (a : MacroAgent) (pr : Json.Printing) (loadsLimit : Nat)

/-- `_hold`. -/
def hold (symbol rationale : Text) (now : UtcTime) : AgentSignal where
  agentId := a.agentId
  symbol := symbol
  action := .hold
  confidence := 0
  rationale := rationale
  ts := now.toDateTime
  confidence_range := zero_confidence

def buildPrompt (symbol : Text) : Except Exn Text := do
  let prices := a.context.recentPrices symbol (some a.historyWindow)
  renderPrompt symbol prices (← a.news symbol)

/-- The signal of an answer. -/
def vote (symbol : Text) (action : Action) (confidence : Python.Float) (rationale : Text)
    (now : UtcTime) : AgentSignal where
  agentId := a.agentId
  symbol := symbol
  action := action
  confidence := clampUnit confidence
  rationale := if rationale = [] then text "(no rationale)" else rationale
  ts := now.toDateTime
  confidence_range := clampUnit_range confidence

/-- `_parse_signal`. -/
def parseSignal (symbol : Text) (raw : Option Text) (now : UtcTime) : Except Exn AgentSignal := do
  match raw.filter fun s => strip s ≠ [] with
  | none => raise .valueError (text "empty LLM response")
  | some raw =>
      let pairs ← readPayload loadsLimit (← extractJsonBlock raw)
      let action ← readAction pr ((Json.get? pairs (text "action")).getD .null)
      let confidence ← readConfidence pr ((Json.get? pairs (text "confidence")).getD .null)
      let rationale ← readRationale pr (Json.get? pairs (text "rationale"))
      return a.vote symbol action confidence rationale now

def llmStubRationale : Text := text "LLM client not configured — defaulting to HOLD"

/-- The handlers around the call of the client and around the parser: the record of the
failure, and a HOLD. -/
def callFailed (llm : LlmClient) (symbol : Text) (e : Exn) (now : UtcTime) :
    Except Exn AgentSignal := do
  let _ ← llm.provider
  let _ ← llm.model
  return a.hold symbol
    (text "LLM call failed (" ++ e.kind.name ++ text "): falling back to HOLD") now

def parseFailed (llm : LlmClient) (symbol : Text) (e : Exn) (now : UtcTime) :
    Except Exn AgentSignal := do
  let _ ← llm.provider
  return a.hold symbol
    (text "LLM response unparseable (" ++ e.kind.name ++ text "): falling back to HOLD") now

/-- The answer of the client, as a signal. -/
def consult (llm : LlmClient) (prompt symbol : Text) (now : UtcTime) : Except Exn AgentSignal :=
  match llm.complete prompt with
  | .error e => a.callFailed llm symbol e now
  | .ok raw =>
      match a.parseSignal pr loadsLimit symbol raw now with
      | .error e => a.parseFailed llm symbol e now
      | .ok signal => .ok signal

/-- What the record of the prompt reads of the client. -/
def logPrompt : Except Exn Text :=
  match a.llm with
  | none => .ok (text "none")
  | some llm => do if ← llm.truthy then llm.provider else return text "none"

/-- `evaluate`. -/
def evaluate (symbol : Text) (now : UtcTime) : Except Exn AgentSignal := do
  let prompt ← a.buildPrompt symbol
  let _ ← a.logPrompt
  match a.llm with
  | none => return a.hold symbol llmStubRationale now
  | some llm => a.consult pr loadsLimit llm prompt symbol now

end MacroAgent
end NexusBackend
