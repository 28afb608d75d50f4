import NexusBackend.Library.DateTime

/-!
`datetime.strptime(s, "%Y-%m-%d %H:%M:%S")`.

The format is a regular expression that is matched from the front. A field is the list of its
readings in the order in which the expression tries them; the first way through all fields is
the match, and text that is left over is an error. Digits are those of the Unicode database
except where the expression names them.
-/
namespace Python

/-- The readings of a field at the front of a text, each with the rest of it. -/
abbrev Field := Text → List (Nat × Text)

/-- `[lo-hi]`. -/
def digitIn (lo hi c : Nat) : Option Nat :=
  if 48 + lo ≤ c ∧ c ≤ 48 + hi then some (c - 48) else none

def oneDigit (digit : Nat → Option Nat) : Field
  | c :: s => ((digit c).map fun n => (n, s)).toList
  | [] => []

def twoDigits (first second : Nat → Option Nat) : Field := fun s =>
  (oneDigit first s).flatMap fun (m, s) =>
    (oneDigit second s).map fun (n, s) => (10 * m + n, s)

/-- A character of the format. -/
def literal (c : Nat) : Text → List Text
  | d :: s => if d = c then [s] else []
  | [] => []

/-- `\s+`: as much as there is first. -/
def whiteSpace (s : Text) : List Text :=
  ((List.range (s.takeWhile isSpace).length).map fun n => s.drop (n + 1)).reverse

namespace Strptime

def year : Field := fun s =>
  (twoDigits decimalDigit? decimalDigit? s).flatMap fun (m, s) =>
    (twoDigits decimalDigit? decimalDigit? s).map fun (n, s) => (100 * m + n, s)

def month : Field := fun s =>
  twoDigits (digitIn 1 1) (digitIn 0 2) s ++ twoDigits (digitIn 0 0) (digitIn 1 9) s ++
    oneDigit (digitIn 1 9) s

def day : Field := fun s =>
  twoDigits (digitIn 3 3) (digitIn 0 1) s ++ twoDigits (digitIn 1 2) decimalDigit? s ++
    twoDigits (digitIn 0 0) (digitIn 1 9) s ++ oneDigit (digitIn 1 9) s ++
    (literal 32 s).flatMap (oneDigit (digitIn 1 9))

def hour : Field := fun s =>
  twoDigits (digitIn 2 2) (digitIn 0 3) s ++ twoDigits (digitIn 0 1) decimalDigit? s ++
    oneDigit decimalDigit? s

def minute : Field := fun s =>
  twoDigits (digitIn 0 5) decimalDigit? s ++ oneDigit decimalDigit? s

def second : Field := fun s =>
  twoDigits (digitIn 6 6) (digitIn 0 1) s ++ twoDigits (digitIn 0 5) decimalDigit? s ++
    oneDigit decimalDigit? s

/-- The fields of the format with what is left over, in the order the expression finds them. -/
def readings (s : Text) : List (List Nat × Text) :=
  (year s).flatMap fun (y, s) => (literal 45 s).flatMap fun s =>
  (month s).flatMap fun (m, s) => (literal 45 s).flatMap fun s =>
  (day s).flatMap fun (d, s) => (whiteSpace s).flatMap fun s =>
  (hour s).flatMap fun (hh, s) => (literal 58 s).flatMap fun s =>
  (minute s).flatMap fun (mm, s) => (literal 58 s).flatMap fun s =>
  (second s).map fun (ss, s) => ([y, m, d, hh, mm, ss], s)

end Strptime

/-- `datetime.strptime(s, "%Y-%m-%d %H:%M:%S")`, a naive value. -/
def strptime (s : Text) : Except Exn (Date × Time) :=
  match (Strptime.readings s).head? with
  | some ([y, m, d, hh, mm, ss], []) => do
      let date ← Date.make y m d
      let time ← Time.make hh mm ss 0
      return (date, time)
  | _ => raise .valueError

example : (strptime (text "2026-01-05 09:00:07")).toOption.map (fun r => (r.1.day, r.2.second)) =
    some (5, 7) := by
  decide +kernel

theorem strptime_ends (s : Text) :
    Ends (fun _ => True) (fun e => e.kind = .valueError) (strptime s) := by
  have hdate (y m d : Nat) :
      Ends (fun _ => True) (fun e => e.kind = .valueError) (Date.make y m d) := by
    rw [Date.make]
    split
    · exact ends_ok trivial
    · exact ends_error rfl
  have htime (h m s us : Nat) :
      Ends (fun _ => True) (fun e => e.kind = .valueError) (Time.make h m s us) := by
    rw [Time.make]
    split
    · exact ends_ok trivial
    · exact ends_error rfl
  rw [strptime]
  split
  · exact ends_bind (hdate _ _ _) fun _ _ => ends_bind (htime _ _ _ _) fun _ _ => ends_ok trivial
  · exact ends_error rfl

end Python
