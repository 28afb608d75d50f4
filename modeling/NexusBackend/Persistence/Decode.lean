import NexusBackend.Library.JsonText
import NexusBackend.Market.Models

/-!
The two decoders of the persistence worker: `_dict_to_tick` and
`ExecutionRepository._envelope_to_row`, and exactly which values make each of them
raise past the handler around it.

A decoder reads its fields in the order of the source, and the first that fails
decides. The tables below list, field by field, when it lets the next one be read
and when its error is of a class that the handler does not name.
-/
namespace NexusBackend

open Python

/-- `except (ValueError, KeyError, TypeError)`, around both decoders. -/
def decodeErrors : List ExnKind := [.valueError, .keyError, .typeError]

/-! ### Fields read in order -/

/-- One step of a decoder: it succeeds, or its error gets past the handler. -/
structure Stage where
  reads : Prop
  leaks : Prop

/-- The first stage that does not read is one that leaks. -/
def Leaks : List Stage → Prop
  | [] => False
  | s :: rest => s.leaks ∨ s.reads ∧ Leaks rest

/-- The stage says when the computation returns and when its error escapes. -/
def Stage.Describes {α : Type} (s : Stage) (x : Except Exn α) : Prop :=
  (x.isOk = true ↔ s.reads) ∧ (Escapes decodeErrors x ↔ s.leaks)

theorem leaks_cons {α β : Type} {s : Stage} {rest : List Stage} {x : Except Exn α}
    {f : α → Except Exn β} (hs : s.Describes x)
    (hrest : ∀ a, x = .ok a → (Escapes decodeErrors (f a) ↔ Leaks rest)) :
    Escapes decodeErrors (x >>= f) ↔ Leaks (s :: rest) := by
  rw [escapes_bind_iff, hs.2, Leaks, ← hs.1]
  cases x with
  | ok a =>
      rw [← hrest a rfl]
      simp [Except.isOk, Except.toBool]
  | error e => simp [Except.isOk, Except.toBool]

section
variable {α : Type} {x : Except Exn α} {s : Stage}

theorem describes_raise {kind : ExnKind} (h : (⟨kind, []⟩ : Exn).isInstance decodeErrors = true)
    (hr : ¬ s.reads) (hl : ¬ s.leaks) : s.Describes (raise kind : Except Exn α) :=
  ⟨iff_of_false nofun hr, iff_of_false (by simp [escapes_raise_iff, h]) hl⟩

theorem describes_ok {a : α} (hr : s.reads) (hl : ¬ s.leaks) : s.Describes (.ok a) :=
  ⟨iff_of_true rfl hr, iff_of_false (not_escapes_ok _ _) hl⟩

end

/-! ### Conversions of one value -/

/-- `str(v)`. -/
def strStage (pr : Json.Printing) (v : Json) : Stage :=
  ⟨v.depth ≤ pr.strLimit, pr.strLimit < v.depth⟩

/-- `datetime.fromisoformat(str(v))`. -/
def isoStage (pr : Json.Printing) (v : Json) : Stage :=
  ⟨v.depth ≤ pr.strLimit ∧ (fromisoformat? (v.strText pr.printable)).isSome = true,
    pr.strLimit < v.depth⟩

/-- `Decimal(str(v))`: the error of a text that is no number is not named. -/
def decimalStage (pr : Json.Printing) (v : Json) : Stage :=
  ⟨v.depth ≤ pr.strLimit ∧ (Decimal.ofText? (v.strText pr.printable)).isSome = true,
    pr.strLimit < v.depth ∨ Decimal.ofText? (v.strText pr.printable) = none⟩

/-- `int(v)`: the error of an infinite float is not named. -/
def intStage (v : Json) : Stage :=
  ⟨v.toInt.isOk = true, ∃ negative, v = .float (.inf negative)⟩

/-- `float(v)`: the error of an integer beyond the range of floats is not named. -/
def floatStage (v : Json) : Stage :=
  ⟨v.toFloat.isOk = true, ∃ n : Int, v = .int n ∧ ∃ negative, Float.ofRat n = .inf negative⟩

/-- `json.dumps(v)`. -/
def dumpsStage (pr : Json.Printing) (v : Json) : Stage :=
  ⟨v.depth ≤ pr.dumpsLimit, pr.dumpsLimit < v.depth⟩

theorem toStr_str (pr : Json.Printing) (s : Text) : (Json.str s).toStr pr = .ok s :=
  if_pos (Nat.zero_le _)

theorem strStage_describes (pr : Json.Printing) (v : Json) :
    (strStage pr v).Describes (v.toStr pr) := by
  simp only [Json.toStr]
  split
  · rename_i h
    exact describes_ok h (Nat.not_lt.mpr h)
  · rename_i h
    exact ⟨iff_of_false nofun h, iff_of_true ((escapes_raise_iff _ _).mpr rfl) (Nat.lt_of_not_le h)⟩

theorem dumpsStage_describes (pr : Json.Printing) (v : Json) :
    (dumpsStage pr v).Describes (v.dumps pr) := by
  simp only [Json.dumps]
  split
  · rename_i h
    exact describes_ok h (Nat.not_lt.mpr h)
  · rename_i h
    exact ⟨iff_of_false nofun h, iff_of_true ((escapes_raise_iff _ _).mpr rfl) (Nat.lt_of_not_le h)⟩

theorem isoStage_describes (pr : Json.Printing) (v : Json) :
    (isoStage pr v).Describes (v.toStr pr >>= fromisoformat) := by
  simp only [Json.toStr]
  split
  · rename_i h
    change (isoStage pr v).Describes (fromisoformat _)
    simp only [fromisoformat]
    split
    · rename_i d hd
      exact describes_ok ⟨h, by simp [hd]⟩ (Nat.not_lt.mpr h)
    · rename_i hd
      exact describes_raise rfl (fun hr => by simp [isoStage, hd] at hr) (Nat.not_lt.mpr h)
  · rename_i h
    exact ⟨iff_of_false Bool.false_ne_true fun hr => h hr.1,
      iff_of_true ((escapes_raise_iff _ _).mpr rfl) (Nat.lt_of_not_le h)⟩

theorem decimalStage_describes (pr : Json.Printing) (v : Json) :
    (decimalStage pr v).Describes (v.toStr pr >>= Decimal.ofText) := by
  simp only [Json.toStr]
  split
  · rename_i h
    change (decimalStage pr v).Describes (Decimal.ofText _)
    simp only [Decimal.ofText]
    split
    · rename_i d hd
      exact describes_ok ⟨h, by simp [hd]⟩ (by simp [decimalStage, hd, Nat.not_lt.mpr h])
    · rename_i hd
      exact ⟨iff_of_false Bool.false_ne_true fun hr => by simp [decimalStage, hd] at hr,
        iff_of_true ((escapes_raise_iff _ _).mpr rfl) (.inr hd)⟩
  · rename_i h
    exact ⟨iff_of_false Bool.false_ne_true fun hr => h hr.1,
      iff_of_true ((escapes_raise_iff _ _).mpr rfl) (.inl (Nat.lt_of_not_le h))⟩

theorem intStage_describes (v : Json) : (intStage v).Describes v.toInt :=
  ⟨Iff.rfl, Json.escapes_toInt_iff (by simp [decodeErrors]) (by simp [decodeErrors]) rfl v⟩

theorem floatStage_describes (v : Json) : (floatStage v).Describes v.toFloat :=
  ⟨Iff.rfl, Json.escapes_toFloat_iff (by simp [decodeErrors]) (by simp [decodeErrors]) rfl v⟩

/-! ### Reading one field -/

/-- `conv(d[key])`. -/
def required {α : Type} (d : Json) (key : String) (conv : Json → Except Exn α) :
    Except Exn α :=
  d.index (text key) >>= conv

/-- `conv(d.get(key, default))`. -/
def optional {α : Type} (d : Json) (key : String) (default : Json)
    (conv : Json → Except Exn α) : Except Exn α :=
  d.dictGet (text key) >>= fun v => conv (v.getD default)

/-- `str(d[key]) if d.get(key) is not None else None`, for the value of the key. -/
def nullableStr (pr : Json.Printing) : Json → Except Exn (Option Text)
  | .null => .ok none
  | v => some <$> v.toStr pr

def requiredStage (d : Json) (key : String) (stage : Json → Stage) : Stage :=
  ⟨∃ v, d.index (text key) = .ok v ∧ (stage v).reads,
    ∃ v, d.index (text key) = .ok v ∧ (stage v).leaks⟩

/-- The method `get` of what is no object leaks. -/
def optionalStage (d : Json) (key : String) (default : Json) (stage : Json → Stage) : Stage :=
  ⟨∃ pairs, d = .obj pairs ∧ (stage ((Json.get? pairs (text key)).getD default)).reads,
    (∀ pairs, d ≠ .obj pairs) ∨
      ∃ pairs, d = .obj pairs ∧ (stage ((Json.get? pairs (text key)).getD default)).leaks⟩

theorem index_not_escapes (d : Json) (key : Text) : ¬ Escapes decodeErrors (d.index key) := by
  simp only [Json.index]
  split
  · split
    · exact not_escapes_ok _ _
    · exact not_escapes_raise rfl
  · exact not_escapes_raise rfl

theorem required_describes {α : Type} (d : Json) (key : String) {stage : Json → Stage}
    {conv : Json → Except Exn α} (h : ∀ v, (stage v).Describes (conv v)) :
    (requiredStage d key stage).Describes (required d key conv) := by
  have hindex := index_not_escapes d (text key)
  simp only [required, requiredStage, Stage.Describes]
  rw [escapes_bind_iff]
  cases hd : d.index (text key) with
  | error e =>
      rw [hd] at hindex
      exact ⟨iff_of_false nofun nofun, iff_of_false (fun he => he.elim hindex nofun) nofun⟩
  | ok v =>
      constructor
      · refine (h v).1.trans ⟨fun hr => ⟨v, rfl, hr⟩, ?_⟩
        rintro ⟨w, ⟨⟩, hr⟩
        exact hr
      · constructor
        · rintro (he | ⟨w, ⟨⟩, he⟩)
          · exact absurd he (not_escapes_ok _ _)
          · exact ⟨v, rfl, (h v).2.mp he⟩
        · rintro ⟨w, ⟨⟩, hl⟩
          exact .inr ⟨v, rfl, (h v).2.mpr hl⟩

theorem optional_describes {α : Type} (d : Json) (key : String) (default : Json)
    {stage : Json → Stage} {conv : Json → Except Exn α} (h : ∀ v, (stage v).Describes (conv v)) :
    (optionalStage d key default stage).Describes (optional d key default conv) := by
  simp only [optional, optionalStage, Stage.Describes]
  cases d with
  | obj pairs =>
      have hv := h ((Json.get? pairs (text key)).getD default)
      constructor
      · refine hv.1.trans ⟨fun hr => ⟨pairs, rfl, hr⟩, ?_⟩
        rintro ⟨w, ⟨⟩, hr⟩
        exact hr
      · refine hv.2.trans ⟨fun hl => .inr ⟨pairs, rfl, hl⟩, ?_⟩
        rintro (hne | ⟨w, ⟨⟩, hl⟩)
        · exact absurd rfl (hne pairs)
        · exact hl
  | _ =>
      exact ⟨iff_of_false nofun nofun,
        iff_of_true ((escapes_bind_iff _ _ _).mpr (.inl ((escapes_raise_iff _ _).mpr rfl)))
          (.inl nofun)⟩

theorem nullableStr_describes (pr : Json.Printing) (v : Json) :
    (strStage pr v).Describes (nullableStr pr v) := by
  have h := strStage_describes pr v
  simp only [nullableStr]
  split
  · exact describes_ok (Nat.zero_le _) (Nat.not_lt_zero _)
  · refine ⟨?_, (escapes_map_iff _ _ _).trans h.2⟩
    rw [← h.1]
    cases v.toStr pr <;> rfl

/-! ### Ticks -/

def dictToTick (pr : Json.Printing) (d : Json) : Except Exn Tick := do
  let sideStr ← optional d "side" (.str (text "buy")) (·.toStr pr)
  let side : TickSide := if asciiLower sideStr = text "sell" then .sell else .buy
  let symbol ← required d "symbol" (·.toStr pr)
  let ts ← required d "ts" fun v => v.toStr pr >>= fromisoformat
  let price ← required d "price" fun v => v.toStr pr >>= Decimal.ofText
  let volume ← required d "volume" Json.toInt
  Tick.make symbol ts price volume side

def tickStages (pr : Json.Printing) (d : Json) : List Stage :=
  [optionalStage d "side" (.str (text "buy")) (strStage pr), requiredStage d "symbol" (strStage pr),
    requiredStage d "ts" (isoStage pr), requiredStage d "price" (decimalStage pr),
    requiredStage d "volume" intStage]

theorem dictToTick_escapes_iff (pr : Json.Printing) (d : Json) :
    Escapes decodeErrors (dictToTick pr d) ↔ Leaks (tickStages pr d) := by
  simp only [dictToTick, tickStages]
  refine leaks_cons (optional_describes _ _ _ (strStage_describes pr)) fun sideStr _ => ?_
  refine leaks_cons (required_describes _ _ (strStage_describes pr)) fun symbol _ => ?_
  refine leaks_cons (required_describes _ _ (isoStage_describes pr)) fun ts _ => ?_
  refine leaks_cons (required_describes _ _ (decimalStage_describes pr)) fun price _ => ?_
  refine leaks_cons (required_describes _ _ intStage_describes) fun volume _ => ?_
  exact iff_of_false ((Tick.make_ends ..).not_escapes fun e h => by
    simp [Exn.isInstance, h, decodeErrors, ExnKind.isA, ExnKind.base]) id

/-! ### Rows of the audit table -/

/-- The thirteen parameters of the insert. -/
structure AuditRow where
  ts : DateTime
  symbol : Text
  mode : Text
  executed : Bool
  intendedAction : Text
  intendedQuantity : Int
  orderId : Option Text
  blockedBy : Option Text
  reason : Option Text
  signalAction : Text
  signalConfidence : Python.Float
  signalScore : Python.Float
  signalRationale : Text
deriving DecidableEq

def envelopeToRow (pr : Json.Printing) (env : Json) : Except Exn AuditRow := do
  let signal ← env.index (text "signal")
  let ts ← required env "ts" fun v => v.toStr pr >>= fromisoformat
  let symbol ← required env "symbol" (·.toStr pr)
  let mode ← required env "mode" (·.toStr pr)
  let executed ← required env "executed" fun v => .ok v.truthy
  let intendedAction ← required env "intended_action" (·.toStr pr)
  let intendedQuantity ← optional env "intended_quantity" (.int 0) Json.toInt
  let orderId ← optional env "order_id" .null (nullableStr pr)
  let blockedBy ← optional env "blocked_by" .null (nullableStr pr)
  let reason ← optional env "reason" .null (nullableStr pr)
  let signalAction ← required signal "action" (·.toStr pr)
  let signalConfidence ← required signal "confidence" Json.toFloat
  let signalScore ← required signal "score" Json.toFloat
  let signalRationale ← optional signal "rationale" (.arr []) (·.dumps pr)
  return ⟨ts, symbol, mode, executed, intendedAction, intendedQuantity, orderId, blockedBy,
    reason, signalAction, signalConfidence, signalScore, signalRationale⟩

/-- `env["signal"]`, where it is there. -/
def signalOf (env : Json) : Json :=
  match env.index (text "signal") with
  | .ok signal => signal
  | .error _ => .null

def envelopeStages (pr : Json.Printing) (env : Json) : List Stage :=
  [⟨(env.index (text "signal")).isOk = true, False⟩,
    requiredStage env "ts" (isoStage pr), requiredStage env "symbol" (strStage pr),
    requiredStage env "mode" (strStage pr), requiredStage env "executed" fun _ => ⟨True, False⟩,
    requiredStage env "intended_action" (strStage pr),
    optionalStage env "intended_quantity" (.int 0) intStage,
    optionalStage env "order_id" .null (strStage pr),
    optionalStage env "blocked_by" .null (strStage pr),
    optionalStage env "reason" .null (strStage pr),
    requiredStage (signalOf env) "action" (strStage pr),
    requiredStage (signalOf env) "confidence" floatStage,
    requiredStage (signalOf env) "score" floatStage,
    optionalStage (signalOf env) "rationale" (.arr []) (dumpsStage pr)]

theorem envelopeToRow_escapes_iff (pr : Json.Printing) (env : Json) :
    Escapes decodeErrors (envelopeToRow pr env) ↔ Leaks (envelopeStages pr env) := by
  simp only [envelopeToRow, envelopeStages]
  refine leaks_cons ⟨Iff.rfl, iff_of_false (index_not_escapes _ _) id⟩ fun signal hs => ?_
  have hsignal : signalOf env = signal := by simp [signalOf, hs]
  rw [hsignal]
  refine leaks_cons (required_describes _ _ (isoStage_describes pr)) fun ts _ => ?_
  refine leaks_cons (required_describes _ _ (strStage_describes pr)) fun symbol _ => ?_
  refine leaks_cons (required_describes _ _ (strStage_describes pr)) fun mode _ => ?_
  refine leaks_cons (required_describes _ _ fun v => describes_ok trivial id) fun executed _ => ?_
  refine leaks_cons (required_describes _ _ (strStage_describes pr)) fun action _ => ?_
  refine leaks_cons (optional_describes _ _ _ intStage_describes) fun quantity _ => ?_
  refine leaks_cons (optional_describes _ _ _ (nullableStr_describes pr)) fun orderId _ => ?_
  refine leaks_cons (optional_describes _ _ _ (nullableStr_describes pr)) fun blockedBy _ => ?_
  refine leaks_cons (optional_describes _ _ _ (nullableStr_describes pr)) fun reason _ => ?_
  refine leaks_cons (required_describes _ _ (strStage_describes pr)) fun action _ => ?_
  refine leaks_cons (required_describes _ _ floatStage_describes) fun confidence _ => ?_
  refine leaks_cons (required_describes _ _ floatStage_describes) fun score _ => ?_
  refine leaks_cons (optional_describes _ _ _ (dumpsStage_describes pr)) fun rationale _ => ?_
  exact iff_of_false (not_escapes_ok _ _) id

end NexusBackend
