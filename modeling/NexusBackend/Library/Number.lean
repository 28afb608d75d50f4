import NexusBackend.Library.Binary64
import NexusBackend.Library.Text
import Mathlib.Data.List.DropRight
import Mathlib.Data.Nat.Sqrt

/-!
`float` and `decimal.Decimal`: literals, conversions and printing.

A `Decimal` keeps sign, coefficient and exponent, as the constructor reads them exactly.
Arithmetic on floats is not defined here: a caller that computes with them says
at which precision it does.
-/
namespace Python

/-- `float(n)`, which refuses an integer beyond the finite range. -/
def floatOfInt (n : Int) : Except Exn Float :=
  match Float.ofRat n with
  | .inf _ => raise .overflowError
  | x => .ok x

/-- `int(x)`: truncation toward zero. -/
def intOfFloat : Float → Except Exn Int
  | .finite q => .ok (if q < 0 then -⌊-q⌋ else ⌊q⌋)
  | .inf _ => raise .overflowError
  | .nan => raise .valueError

/-! ### Numerals -/

/-- `d.ddd` with an optional exponent, as the scanners of `float` and `Decimal` split it. -/
structure Numeral where
  digits : List Nat
  scale : Nat
  exponent : Int
deriving DecidableEq

def takeDigits : Text → List Nat × Text
  | [] => ([], [])
  | c :: s =>
      if 48 ≤ c ∧ c ≤ 57 then ((c - 48) :: (takeDigits s).1, (takeDigits s).2) else ([], c :: s)

/-- The part after the digits: nothing, or `e` with an optionally signed integer. -/
def exponentPart? : Text → Option Int
  | [] => some 0
  | c :: s =>
      if c = 101 ∨ c = 69 then
        let (negative, t) := takeSign s
        match takeDigits t with
        | (d :: ds, []) =>
            some (if negative then -(ofDigits (d :: ds) : Int) else ofDigits (d :: ds))
        | _ => none
      else none

/-- The digits after a point, where there is one. -/
def pointPart : Text → List Nat × Text
  | 46 :: t => takeDigits t
  | t => ([], t)

/-- An unsigned decimal numeral: digits with at most one point, at least one digit. -/
def numeral? (s : Text) : Option Numeral :=
  let whole := takeDigits s
  let frac := pointPart whole.2
  if whole.1 ++ frac.1 = [] then none
  else (exponentPart? frac.2).map fun e => ⟨whole.1 ++ frac.1, frac.1.length, e⟩

/-- The binary64 value of `± coefficient * 10 ^ exponent`. Far outside the range
of binary64 the power of ten is not computed. -/
def Float.ofScientific (negative : Bool) (coefficient : Nat) (exponent : Int) : Float :=
  let adjusted := exponent + (natText coefficient).length
  if coefficient = 0 ∨ adjusted < -400 then .finite 0
  else if 400 < adjusted then .inf negative
  else .ofRat ((if negative then -1 else 1) * coefficient * pow10 exponent)

def Numeral.toFloat (negative : Bool) (n : Numeral) : Float :=
  .ofScientific negative (ofDigits n.digits) (n.exponent - n.scale)

/-- Underscores are removed where they stand between digits, and refused elsewhere. -/
def dropUnderscores? : Option Nat → Text → Option Text
  | _, [] => some []
  | before, c :: s =>
      if c = 95 then
        match before.bind decimalDigit?, s.head?.bind decimalDigit? with
        | some _, some _ => dropUnderscores? none s
        | _, _ => none
      else (dropUnderscores? (some c) s).map (c :: ·)

/-- Decimal digits of any script become ASCII; other characters stay. -/
def asciiDigits (s : Text) : Text :=
  s.map fun c => match decimalDigit? c with
    | some d => 48 + d
    | none => c

/-- `float(s)` for a string. -/
def floatOfText (s : Text) : Except Exn Float :=
  let read : Option Float :=
    (dropUnderscores? none (asciiDigits (stripNumber s))).bind fun t =>
      let (negative, body) := takeSign t
      if asciiLower body ∈ [text "inf", text "infinity"] then some (.inf negative)
      else if asciiLower body = text "nan" then some .nan
      else (numeral? body).map (Numeral.toFloat negative)
  match read with
  | some x => .ok x
  | none => raise .valueError

theorem floatOfText_ends (s : Text) :
    Ends (fun _ => True) (fun e => e.kind = .valueError) (floatOfText s) := by
  rw [floatOfText]
  dsimp only
  split
  · exact ends_ok trivial
  · exact ends_error rfl

/-! ### Decimal -/

inductive Decimal
  | finite (negative : Bool) (coefficient : Nat) (exponent : Int)
  | infinity (negative : Bool)
  | nan (signaling : Bool)
deriving DecidableEq

namespace Decimal

/-- The largest adjusted exponent, and the smallest exponent, of an exact construction. -/
def maxAdjusted : Int := 999999999999999999
def minExponent : Int := -1999999999999999997

/-- A `NaN` may carry a diagnostic number. -/
def isNanText (s : Text) : Bool :=
  startsWith s (text "nan") && (takeDigits (s.drop 3)).2 = []

/-- `Decimal(s)` for a string, or nothing where it raises `InvalidOperation`:
white space is trimmed, every underscore dropped, digits of any script read. -/
def ofText? (s : Text) : Option Decimal :=
  let t := asciiDigits ((strip s).filter (· ≠ 95))
  let (negative, body) := takeSign t
  let word := asciiLower body
  if word ∈ [text "inf", text "infinity"] then some (.infinity negative)
  else if isNanText word then some (.nan false)
  else if startsWith word (text "s") && isNanText (word.drop 1) then some (.nan true)
  else (numeral? body).bind fun n =>
    let coefficient := ofDigits n.digits
    let exponent := n.exponent - n.scale
    let adjusted := if coefficient = 0 then exponent
      else exponent + (natText coefficient).length - 1
    if adjusted ≤ maxAdjusted ∧ minExponent ≤ exponent then
      some (.finite negative coefficient exponent)
    else none

def ofText (s : Text) : Except Exn Decimal :=
  match ofText? s with
  | some d => .ok d
  | none => raise .invalidOperation

theorem ofText_ends (s : Text) :
    Ends (fun _ => True) (fun e => e.kind = .invalidOperation) (ofText s) := by
  simp only [ofText]
  split
  · exact ends_ok trivial
  · exact ends_error rfl

/-- `d <= 0`. An ordering comparison with a `NaN` signals. -/
def leZero : Decimal → Except Exn Bool
  | .finite negative coefficient _ => .ok (negative || coefficient = 0)
  | .infinity negative => .ok negative
  | .nan _ => raise .invalidOperation

theorem leZero_ends (d : Decimal) :
    Ends (fun _ => True) (fun e => e.kind = .invalidOperation) d.leZero := by
  cases d with
  | nan signaling => exact ends_error rfl
  | _ => exact ends_ok trivial

def isFinite : Decimal → Bool
  | .finite .. => true
  | _ => false

/-- The rational a finite value denotes; the others have none. -/
def toRat : Decimal → ℚ
  | .finite negative coefficient exponent =>
      (if negative then -1 else 1) * coefficient * pow10 exponent
  | _ => 0

/-- `float(d)`. -/
def toFloat : Decimal → Float
  | .finite negative coefficient exponent => .ofScientific negative coefficient exponent
  | .infinity negative => .inf negative
  | .nan _ => .nan

end Decimal

/-! ### Printing a float -/

/-- The number of places by which a positive rational below one must be shifted
to reach one. -/
def leadingPlaces : Nat → ℚ → Nat
  | 0, _ => 0
  | fuel + 1, q => if 1 ≤ q then 0 else leadingPlaces fuel (10 * q) + 1

/-- The position of the decimal point: `10 ^ (k - 1) ≤ q < 10 ^ k`. -/
def decimalPoint (q : ℚ) : Int :=
  if 1 ≤ q then ((natText ⌊q⌋.toNat).length : Int) else 1 - leadingPlaces 400 q

/-- Digits without the zeros at their end. -/
def trimZeros (ds : List Nat) : List Nat := ds.rdropWhile (· = 0)

/-- The shortest digits that read back as the float `q`, tried from `n` digits on, with
the position of the decimal point. -/
def shortestDigits (q : ℚ) : Nat → Nat → List Nat × Int
  | 0, n =>
      let m := (roundHalfEven (q / pow10 (decimalPoint q - n))).toNat
      (trimZeros (natDigits m), decimalPoint q - n + (natDigits m).length)
  | fuel + 1, n =>
      let m := (roundHalfEven (q / pow10 (decimalPoint q - n))).toNat
      if Float.ofRat (m * pow10 (decimalPoint q - n)) = .finite q then
        (trimZeros (natDigits m), decimalPoint q - n + (natDigits m).length)
      else shortestDigits q fuel (n + 1)

/-- The text of a positive float: plain from `1e-4` up to `1e16`, else scientific. A float
has at most 1074 binary and so as many decimal places. -/
def positiveText (q : ℚ) : Text :=
  let (ds, point) := shortestDigits q (1074 + decimalPoint q).toNat 1
  if -4 ≤ point - 1 ∧ point - 1 < 16 then
    if point ≤ 0 then text "0." ++ digitText (List.replicate (-point).toNat 0 ++ ds)
    else if ds.length ≤ point then
      digitText (ds ++ List.replicate (point.toNat - ds.length) 0) ++ text ".0"
    else digitText (ds.take point.toNat) ++ 46 :: digitText (ds.drop point.toNat)
  else
    let e := point - 1
    digitText (ds.take 1) ++ (if ds.length ≤ 1 then [] else 46 :: digitText (ds.drop 1)) ++
      (if e < 0 then text "e-" else text "e+") ++
      (if e.natAbs < 10 then 48 :: natText e.natAbs else natText e.natAbs)

/-- `repr` of a float. -/
def Float.text : Float → Text
  | .finite q =>
      if q = 0 then Python.text "0.0"
      else if q < 0 then 45 :: positiveText (-q) else positiveText q
  | .inf negative => if negative then Python.text "-inf" else Python.text "inf"
  | .nan => Python.text "nan"

/-- `f"{q:.{places}f}"` of an exact value. -/
def fixedText (places : Nat) (q : ℚ) : Text :=
  let n := roundHalfEven (q * 10 ^ places)
  let ds := natText n.natAbs
  let padded := List.replicate (places + 1 - ds.length) 48 ++ ds
  (if q < 0 then [45] else []) ++ padded.take (padded.length - places) ++
    (if places = 0 then [] else 46 :: padded.drop (padded.length - places))

/-- The integer nearest to the square root of a nonnegative rational. -/
def roundSqrt (q : ℚ) : Nat :=
  let s := Nat.sqrt ⌊q⌋.toNat
  let middle : ℚ := (s + 1 / 2) * (s + 1 / 2)
  if middle < q ∨ middle = q ∧ s % 2 = 1 then s + 1 else s

/-- `f"{math.sqrt(q):.{places}f}"` of an exact value. -/
def fixedSqrtText (places : Nat) (q : ℚ) : Text :=
  fixedText places (roundSqrt (q * 10 ^ (2 * places)) / 10 ^ places)

/-! ### What a function annotated with `int` may return -/

inductive Number
  | int (n : Int)
  | float (x : Float)
deriving DecidableEq

/-- `int(x)`. -/
def Number.toInt : Number → Except Exn Int
  | .int n => .ok n
  | .float x => intOfFloat x

end Python
