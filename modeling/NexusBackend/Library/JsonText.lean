import NexusBackend.Library.JsonReader

/-!
Decoded JSON values as text: `str(v)` of the Python value and `json.dumps`.

Both recurse into containers and give up beyond a nesting of their own. Which
characters outside ASCII `repr` shows unescaped is a table of the interpreter and
a parameter here.
-/
namespace Python

def hexDigit (n : Nat) : Nat := if n < 10 then 48 + n else 87 + n

/-- The lowest `width` hexadecimal digits. -/
def hexText : Nat → Nat → Text
  | 0, _ => []
  | width + 1, n => hexText width (n / 16) ++ [hexDigit (n % 16)]

/-- One character of `repr` of a string within the given quotes. -/
def reprChar (printable : Nat → Bool) (quote c : Nat) : Text :=
  if c = quote ∨ c = 92 then [92, c]
  else if c = 9 then text "\\t"
  else if c = 10 then text "\\n"
  else if c = 13 then text "\\r"
  else if 32 ≤ c ∧ c < 127 then [c]
  else if 127 < c ∧ printable c then [c]
  else if c < 256 then text "\\x" ++ hexText 2 c
  else if c < 65536 then text "\\u" ++ hexText 4 c
  else text "\\U" ++ hexText 8 c

/-- `repr` of a string: double quotes where it holds single ones only. -/
def reprText (printable : Nat → Bool) (s : Text) : Text :=
  let quote := if 39 ∈ s ∧ 34 ∉ s then 34 else 39
  quote :: s.flatMap (reprChar printable quote) ++ [quote]

namespace Json

mutual

/-- How deep containers are nested. -/
def depth : Json → Nat
  | arr items => depthItems items + 1
  | obj pairs => depthPairs pairs + 1
  | _ => 0

def depthItems : List Json → Nat
  | [] => 0
  | v :: vs => max (depth v) (depthItems vs)

def depthPairs : List (Text × Json) → Nat
  | [] => 0
  | (_, v) :: ps => max (depth v) (depthPairs ps)

end

mutual

/-- `repr` of the Python value. -/
def repr (printable : Nat → Bool) : Json → Text
  | null => text "None"
  | bool b => if b then text "True" else text "False"
  | int n => intText n
  | float x => x.text
  | str s => reprText printable s
  | arr items => 91 :: reprItems printable items ++ [93]
  | obj pairs => 123 :: reprPairs printable pairs ++ [125]

def reprItems (printable : Nat → Bool) : List Json → Text
  | [] => []
  | [v] => repr printable v
  | v :: w :: vs => repr printable v ++ text ", " ++ reprItems printable (w :: vs)

def reprPairs (printable : Nat → Bool) : List (Text × Json) → Text
  | [] => []
  | [(k, v)] => reprText printable k ++ text ": " ++ repr printable v
  | (k, v) :: p :: ps =>
      reprText printable k ++ text ": " ++ repr printable v ++ text ", " ++
        reprPairs printable (p :: ps)

end

/-- What the interpreter fixes of printing: how deep `str` and `json.dumps` may recurse,
and the table of printable characters. -/
structure Printing where
  strLimit : Nat
  dumpsLimit : Nat
  printable : Nat → Bool

/-- What `str(v)` shows: a string itself, of anything else its `repr`. -/
def strText (printable : Nat → Bool) : Json → Text
  | str s => s
  | v => repr printable v

/-- `str(v)`. -/
def toStr (pr : Printing) (v : Json) : Except Exn Text :=
  if v.depth ≤ pr.strLimit then .ok (v.strText pr.printable) else raise .recursionError

/-- `repr(v)`. -/
def toRepr (pr : Printing) (v : Json) : Except Exn Text :=
  if v.depth ≤ pr.strLimit then .ok (v.repr pr.printable) else raise .recursionError

theorem toStr_ok_iff (pr : Printing) (v : Json) :
    (∃ s, v.toStr pr = .ok s) ↔ v.depth ≤ pr.strLimit := if_returns_iff

theorem toRepr_ok_iff (pr : Printing) (v : Json) :
    (∃ s, v.toRepr pr = .ok s) ↔ v.depth ≤ pr.strLimit := if_returns_iff

/-! ### json.dumps -/

def escapeUnit (n : Nat) : Text := text "\\u" ++ hexText 4 n

/-- One character of a string in ASCII JSON; beyond the basic plane, a surrogate pair. -/
def dumpsChar (c : Nat) : Text :=
  if c = 34 ∨ c = 92 then [92, c]
  else if 32 ≤ c ∧ c ≤ 126 then [c]
  else if c = 10 then text "\\n"
  else if c = 13 then text "\\r"
  else if c = 9 then text "\\t"
  else if c = 12 then text "\\f"
  else if c = 8 then text "\\b"
  else if c < 0x10000 then escapeUnit c
  else escapeUnit (0xd800 + (c - 0x10000) / 0x400) ++ escapeUnit (0xdc00 + (c - 0x10000) % 0x400)

def dumpsStr (s : Text) : Text := 34 :: s.flatMap dumpsChar ++ [34]

def dumpsFloat : Float → Text
  | .inf negative => if negative then text "-Infinity" else text "Infinity"
  | .nan => text "NaN"
  | x => x.text

mutual

def dumpsText : Json → Text
  | null => text "null"
  | bool b => if b then text "true" else text "false"
  | int n => intText n
  | float x => dumpsFloat x
  | str s => dumpsStr s
  | arr items => 91 :: dumpsItems items ++ [93]
  | obj pairs => 123 :: dumpsPairs pairs ++ [125]

def dumpsItems : List Json → Text
  | [] => []
  | [v] => dumpsText v
  | v :: w :: vs => dumpsText v ++ text ", " ++ dumpsItems (w :: vs)

def dumpsPairs : List (Text × Json) → Text
  | [] => []
  | [(k, v)] => dumpsStr k ++ text ": " ++ dumpsText v
  | (k, v) :: p :: ps =>
      dumpsStr k ++ text ": " ++ dumpsText v ++ text ", " ++ dumpsPairs (p :: ps)

end

/-- `json.dumps(v)`. -/
def dumps (pr : Printing) (v : Json) : Except Exn Text :=
  if v.depth ≤ pr.dumpsLimit then .ok v.dumpsText else raise .recursionError

end Json
end Python
