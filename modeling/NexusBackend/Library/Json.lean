import NexusBackend.Library.Number

/-!
JSON values and `json.loads`.

The reader is a machine that takes one character at a time: a stack of open
containers and a mode. A run of letters, digits and signs is one token, resolved
at its end; where the scanner of the interpreter would stop inside the token,
the token is refused. Nesting beyond `limit` is a `RecursionError`, as the
scanner recurses into every container.
-/
namespace Python

inductive Json
  | null
  | bool (b : Bool)
  | int (n : Int)
  | float (x : Float)
  | str (s : Text)
  | arr (items : List Json)
  | obj (pairs : List (Text × Json))

namespace Json

/-- What is said of the members of an object. -/
theorem obj_and_iff {pairs : List (Text × Json)} {P : List (Text × Json) → Prop} :
    (∃ members, obj pairs = obj members ∧ P members) ↔ P pairs := by
  simp only [obj.injEq, exists_eq_left']

/-! ### Dictionaries -/

/-- `d[key] = value`: in place where the key is there, else at the end. -/
def setKey {α : Type*} (key : Text) (value : α) : List (Text × α) → List (Text × α)
  | [] => [(key, value)]
  | (k, v) :: rest => if k = key then (k, value) :: rest else (k, v) :: setKey key value rest

/-- `d.get(key)`. -/
def get? {α : Type*} (pairs : List (Text × α)) (key : Text) : Option α :=
  (pairs.find? fun p => p.1 = key).map Prod.snd

theorem setKey_new {α : Type*} {key : Text} (value : α) {pairs : List (Text × α)}
    (h : key ∉ pairs.map Prod.fst) : setKey key value pairs = pairs ++ [(key, value)] := by
  induction pairs with
  | nil => rfl
  | cons p rest ih =>
      obtain ⟨k, v⟩ := p
      rw [List.map_cons, List.mem_cons, not_or] at h
      rw [setKey, if_neg fun hk => h.1 hk.symm, ih h.2]
      rfl

theorem mem_setKey {α : Type*} {key : Text} {value : α} {pairs : List (Text × α)} {p : Text × α}
    (h : p ∈ setKey key value pairs) : p = (key, value) ∨ p ∈ pairs := by
  induction pairs with
  | nil => exact .inl (List.mem_singleton.mp h)
  | cons q rest ih =>
      obtain ⟨k, v⟩ := q
      rw [setKey] at h
      split at h
      · rename_i hk
        rcases List.mem_cons.mp h with rfl | h
        · exact .inl (by rw [hk])
        · exact .inr (List.mem_cons_of_mem _ h)
      · rcases List.mem_cons.mp h with rfl | h
        · exact .inr List.mem_cons_self
        · exact (ih h).imp_right (List.mem_cons_of_mem _)

/-- A key that is there keeps its place. -/
theorem keys_setKey_of_mem {α : Type*} {key : Text} (value : α) {pairs : List (Text × α)}
    (h : key ∈ pairs.map Prod.fst) :
    (setKey key value pairs).map Prod.fst = pairs.map Prod.fst := by
  induction pairs with
  | nil => cases h
  | cons p pairs ih =>
      obtain ⟨k, v⟩ := p
      rw [setKey]
      split
      · rfl
      · rename_i hk
        have hrest := (List.mem_cons.mp h).resolve_left fun heq => hk heq.symm
        rw [List.map_cons, List.map_cons, ih hrest]

/-- The key has the new value, and every other key the one it had. -/
theorem get?_setKey {α : Type*} (key : Text) (value : α) (pairs : List (Text × α)) (k : Text) :
    get? (setKey key value pairs) k = if key = k then some value else get? pairs k := by
  induction pairs with
  | nil =>
      by_cases hk : key = k
      · simp [setKey, get?, hk]
      · simp [setKey, get?, hk]
  | cons p rest ih =>
      obtain ⟨k', v⟩ := p
      rw [setKey]
      by_cases hkey : k' = key
      · rw [if_pos hkey, hkey]
        by_cases hk : key = k
        · simp [get?, hk]
        · simp [get?, hk]
      · rw [if_neg hkey]
        by_cases hk' : k' = k
        · have hk : ¬ key = k := fun hk => hkey (hk'.trans hk.symm)
          simp [get?, hk', hk]
        · have hskip (more : List (Text × α)) : get? ((k', v) :: more) k = get? more k := by
            simp [get?, hk']
          rw [hskip, hskip, ih]

theorem mem_of_get? {α : Type*} {pairs : List (Text × α)} {key : Text} {value : α}
    (h : get? pairs key = some value) : (key, value) ∈ pairs := by
  obtain ⟨p, hfind, rfl⟩ := Option.map_eq_some_iff.mp h
  have hkey : p.1 = key := by simpa using List.find?_some hfind
  rw [← hkey]
  exact List.mem_of_find?_eq_some hfind

theorem get?_eq_none_iff {α : Type*} {pairs : List (Text × α)} {key : Text} :
    get? pairs key = none ↔ key ∉ pairs.map Prod.fst := by
  rw [get?, Option.map_eq_none_iff, List.find?_eq_none]
  constructor
  · intro h hmem
    obtain ⟨p, hp, hkey⟩ := List.mem_map.mp hmem
    exact h p hp (decide_eq_true hkey)
  · intro h p hp hkey
    exact h (List.mem_map.mpr ⟨p, hp, of_decide_eq_true hkey⟩)

/-- Where the keys are distinct, a pair is what its key stands for. -/
theorem get?_of_mem {α : Type*} {pairs : List (Text × α)} {key : Text} {value : α}
    (hkeys : (pairs.map Prod.fst).Nodup) (h : (key, value) ∈ pairs) :
    get? pairs key = some value := by
  induction pairs with
  | nil => cases h
  | cons p pairs ih =>
      obtain ⟨k, v⟩ := p
      rw [List.map_cons, List.nodup_cons] at hkeys
      by_cases hk : k = key
      · obtain heq | hmem := List.mem_cons.mp h
        · cases heq
          simp [get?]
        · rw [hk] at hkeys
          exact absurd (List.mem_map_of_mem hmem) hkeys.1
      · obtain heq | hmem := List.mem_cons.mp h
        · cases heq
          exact absurd rfl hk
        · have hrest := ih hkeys.2 hmem
          rw [get?, List.find?_cons_of_neg (by simpa using hk)]
          exact hrest

/-- `d[key]` of a decoded value: only an object has keys that are strings. -/
def index (v : Json) (key : Text) : Except Exn Json :=
  match v with
  | obj pairs =>
      match get? pairs key with
      | some x => .ok x
      | none => raise .keyError
  | _ => raise .typeError

/-! ### Tokens -/

def decodeError {α : Type*} : Except Exn α := raise .jsonDecodeError

def takeDigitRun (s : Text) : Text × Text :=
  (s.takeWhile fun c => 48 ≤ c && c ≤ 57, s.dropWhile fun c => 48 ≤ c && c ≤ 57)

def minusPart : Text → Text × Text
  | 45 :: t => ([45], t)
  | t => ([], t)

/-- A zero alone, or digits. -/
def wholePart? : Text → Option (Text × Text)
  | 48 :: t => some ([48], t)
  | t => if (takeDigitRun t).1 = [] then none else some (takeDigitRun t)

def fracPart : Text → Text × Text
  | 46 :: t =>
      if (takeDigitRun t).1 = [] then ([], 46 :: t)
      else (46 :: (takeDigitRun t).1, (takeDigitRun t).2)
  | t => ([], t)

def expSign : Text → Text × Text
  | 43 :: t => ([43], t)
  | 45 :: t => ([45], t)
  | t => ([], t)

def expPart : Text → Text × Text
  | [] => ([], [])
  | c :: t =>
      let sign := expSign t
      if (c = 101 ∨ c = 69) ∧ (takeDigitRun sign.2).1 ≠ [] then
        (c :: sign.1 ++ (takeDigitRun sign.2).1, (takeDigitRun sign.2).2)
      else ([], c :: t)

/-- The longest prefix that is a JSON number: its text, whether it is a float, and the rest. -/
def numberPrefix? (s : Text) : Option (Text × Bool × Text) :=
  let sign := minusPart s
  (wholePart? sign.2).map fun whole =>
    let frac := fracPart whole.2
    let exp := expPart frac.2
    (sign.1 ++ whole.1 ++ frac.1 ++ exp.1, frac.1 ≠ [] || exp.1 ≠ [], exp.2)

/-- The number a lexeme stands for. -/
def numberValue (isFloat : Bool) (lexeme : Text) : Except Exn Json :=
  if isFloat then float <$> floatOfText lexeme else int <$> intOfText lexeme

/-- A token: a literal or a number. The digits are converted before what follows
them is looked at. -/
def resolve (token : Text) : Except Exn Json :=
  if token = text "null" then .ok null
  else if token = text "true" then .ok (bool true)
  else if token = text "false" then .ok (bool false)
  else if token = text "NaN" then .ok (float .nan)
  else if token = text "Infinity" then .ok (float (.inf false))
  else if token = text "-Infinity" then .ok (float (.inf true))
  else
    match numberPrefix? token with
    | none => decodeError
    | some (lexeme, isFloat, rest) => do
        let v ← numberValue isFloat lexeme
        if rest = [] then .ok v else decodeError

/-! ### The machine -/

/-- An open container, with what it holds so far. -/
inductive Frame
  | arr (items : List Json)
  | obj (pairs : List (Text × Json))
  | member (pairs : List (Text × Json)) (key : Text)

inductive Escape
  | plain
  | backslash
  | unicode (missing : Nat) (value : Nat)

/-- What the reader expects next. In a string, `read` is reversed, and `high` says that
the last character came from an escape and is a high surrogate. -/
inductive Mode
  | value (closable : Bool)
  | key (closable : Bool)
  | colon
  | string (isKey : Bool) (read : Text) (high : Bool) (escape : Escape)
  | token (read : Text)
  | after
  | finished (v : Json)

structure Reader where
  stack : List Frame
  mode : Mode

def isBlank (c : Nat) : Bool := c = 32 || c = 9 || c = 10 || c = 13

/-- The characters of numbers and literals. -/
def isTokenChar (c : Nat) : Bool :=
  (48 ≤ c && c ≤ 57) || (65 ≤ c && c ≤ 90) || (97 ≤ c && c ≤ 122) || c = 43 || c = 45 || c = 46

/-- A value is complete: it goes into the container that is open, if one is. -/
def complete (v : Json) : List Frame → Except Exn Reader
  | [] => .ok ⟨[], .finished v⟩
  | .arr items :: rest => .ok ⟨.arr (items ++ [v]) :: rest, .after⟩
  | .member pairs key :: rest => .ok ⟨.obj (setKey key v pairs) :: rest, .after⟩
  | .obj _ :: _ => decodeError

def openContainer (limit : Nat) (frame : Frame) (mode : Mode) (stack : List Frame) :
    Except Exn Reader :=
  if stack.length < limit then .ok ⟨frame :: stack, mode⟩ else raise .recursionError

def closeArray : List Frame → Except Exn Reader
  | .arr items :: rest => complete (arr items) rest
  | _ => decodeError

def closeObject : List Frame → Except Exn Reader
  | .obj pairs :: rest => complete (obj pairs) rest
  | _ => decodeError

def stepValue (limit : Nat) (stack : List Frame) (closable : Bool) (c : Nat) :
    Except Exn Reader :=
  if isBlank c then .ok ⟨stack, .value closable⟩
  else if c = 123 then openContainer limit (.obj []) (.key true) stack
  else if c = 91 then openContainer limit (.arr []) (.value true) stack
  else if c = 34 then .ok ⟨stack, .string false [] false .plain⟩
  else if isTokenChar c then .ok ⟨stack, .token [c]⟩
  else if c = 93 ∧ closable then closeArray stack
  else decodeError

def stepKey (stack : List Frame) (closable : Bool) (c : Nat) : Except Exn Reader :=
  if isBlank c then .ok ⟨stack, .key closable⟩
  else if c = 34 then .ok ⟨stack, .string true [] false .plain⟩
  else if c = 125 ∧ closable then closeObject stack
  else decodeError

def stepColon (stack : List Frame) (c : Nat) : Except Exn Reader :=
  if isBlank c then .ok ⟨stack, .colon⟩
  else if c = 58 then .ok ⟨stack, .value false⟩
  else decodeError

def stepAfter (stack : List Frame) (c : Nat) : Except Exn Reader :=
  if isBlank c then .ok ⟨stack, .after⟩
  else if c = 44 then
    match stack with
    | .arr _ :: _ => .ok ⟨stack, .value false⟩
    | .obj _ :: _ => .ok ⟨stack, .key false⟩
    | _ => decodeError
  else if c = 93 then closeArray stack
  else if c = 125 then closeObject stack
  else decodeError

/-- The closing quote. -/
def endString (stack : List Frame) (isKey : Bool) (s : Text) : Except Exn Reader :=
  if isKey then
    match stack with
    | .obj pairs :: rest => .ok ⟨.member pairs s :: rest, .colon⟩
    | _ => decodeError
  else complete (str s) stack

def isHighSurrogate (c : Nat) : Bool := 0xd800 ≤ c && c ≤ 0xdbff
def isLowSurrogate (c : Nat) : Bool := 0xdc00 ≤ c && c ≤ 0xdfff

/-- A character read from an escape: the second half of a pair joins the first. -/
def pushUnit (read : Text) (high : Bool) (c : Nat) : Text × Bool :=
  match read with
  | h :: rest =>
      if high ∧ isLowSurrogate c then
        ((0x10000 + (h - 0xd800) * 0x400 + (c - 0xdc00)) :: rest, false)
      else (c :: read, isHighSurrogate c)
  | [] => ([c], isHighSurrogate c)

def hexDigit? (c : Nat) : Option Nat :=
  if 48 ≤ c ∧ c ≤ 57 then some (c - 48)
  else if 97 ≤ c ∧ c ≤ 102 then some (c - 87)
  else if 65 ≤ c ∧ c ≤ 70 then some (c - 55)
  else none

/-- The character an escape letter stands for. -/
def escaped? (c : Nat) : Option Nat :=
  if c = 34 ∨ c = 92 ∨ c = 47 then some c
  else if c = 98 then some 8
  else if c = 102 then some 12
  else if c = 110 then some 10
  else if c = 114 then some 13
  else if c = 116 then some 9
  else none

def stepString (stack : List Frame) (isKey : Bool) (read : Text) (high : Bool)
    (escape : Escape) (c : Nat) : Except Exn Reader :=
  match escape with
  | .plain =>
      if c = 34 then endString stack isKey read.reverse
      else if c = 92 then .ok ⟨stack, .string isKey read high .backslash⟩
      else if c < 32 then decodeError
      else .ok ⟨stack, .string isKey (c :: read) false .plain⟩
  | .backslash =>
      if c = 117 then .ok ⟨stack, .string isKey read high (.unicode 4 0)⟩
      else
        match escaped? c with
        | some d => .ok ⟨stack, .string isKey (d :: read) false .plain⟩
        | none => decodeError
  | .unicode missing value =>
      match hexDigit? c with
      | none => decodeError
      | some d =>
          if missing ≤ 1 then
            let (read', high') := pushUnit read high (16 * value + d)
            .ok ⟨stack, .string isKey read' high' .plain⟩
          else .ok ⟨stack, .string isKey read high (.unicode (missing - 1) (16 * value + d))⟩

/-- A character that ends a token, or stands where no token is open. -/
def stepPlain (limit : Nat) (st : Reader) (c : Nat) : Except Exn Reader :=
  match st.mode with
  | .value closable => stepValue limit st.stack closable c
  | .key closable => stepKey st.stack closable c
  | .colon => stepColon st.stack c
  | .string isKey read high escape => stepString st.stack isKey read high escape c
  | .after => stepAfter st.stack c
  | .finished v => if isBlank c then .ok ⟨st.stack, .finished v⟩ else decodeError
  | .token _ => decodeError

/-- An open token is resolved. -/
def flush (st : Reader) : Except Exn Reader :=
  match st.mode with
  | .token read => do complete (← resolve read.reverse) st.stack
  | _ => .ok st

def step (limit : Nat) (st : Reader) (c : Nat) : Except Exn Reader :=
  match st.mode with
  | .token read =>
      if isTokenChar c then .ok ⟨st.stack, .token (c :: read)⟩
      else do stepPlain limit (← flush st) c
  | _ => stepPlain limit st c

def feed (limit : Nat) (st : Reader) (s : Text) : Except Exn Reader :=
  s.foldlM (step limit) st

def start : Reader := ⟨[], .value false⟩

def finish (st : Reader) : Except Exn Json := do
  match (← flush st).mode with
  | .finished v => .ok v
  | _ => decodeError

/-- `json.loads` of a string. -/
def loads (limit : Nat) (s : Text) : Except Exn Json :=
  if s.head? = some 0xfeff then decodeError
  else do finish (← feed limit start s)

end Json
end Python
