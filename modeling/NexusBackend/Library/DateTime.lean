import NexusBackend.Library.Text
import Mathlib.Tactic.IntervalCases

/-!
`datetime`: dates and times of day in the proleptic Gregorian calendar, UTC
offsets, instants, and the ISO 8601 texts of version 3.11.

Every value is valid by its fields. `fold` is left out: no offset here comes
from a zone with clock changes. Naive values are representable, and only the
instant of an aware one is defined.
-/
namespace Python

/-! ### Calendar -/

def isLeap (year : Nat) : Bool :=
  year % 4 = 0 && (year % 100 ≠ 0 || year % 400 = 0)

def daysInMonth (year month : Nat) : Nat :=
  if month = 2 then (if isLeap year then 29 else 28)
  else if month ∈ [4, 6, 9, 11] then 30 else 31

structure Date where
  year : Nat
  month : Nat
  day : Nat
  year_range : 1 ≤ year ∧ year ≤ 9999
  month_range : 1 ≤ month ∧ month ≤ 12
  day_range : 1 ≤ day ∧ day ≤ daysInMonth year month
deriving DecidableEq

def Date.make (year month day : Nat) : Except Exn Date :=
  if h : (1 ≤ year ∧ year ≤ 9999) ∧ (1 ≤ month ∧ month ≤ 12) ∧
      (1 ≤ day ∧ day ≤ daysInMonth year month) then
    .ok ⟨year, month, day, h.1, h.2.1, h.2.2⟩
  else raise .valueError

theorem Date.make_self (d : Date) : Date.make d.year d.month d.day = .ok d := by
  simp only [Date.make]
  rw [dif_pos ⟨d.year_range, d.month_range, d.day_range⟩]

def daysBeforeYear (year : Nat) : Nat :=
  (year - 1) * 365 + (year - 1) / 4 - (year - 1) / 100 + (year - 1) / 400

def daysBeforeMonth (year month : Nat) : Nat :=
  ((List.range (month - 1)).map fun m => daysInMonth year (m + 1)).sum

/-- Days since 31 December of year 0. -/
def Date.ordinal (d : Date) : Nat :=
  daysBeforeYear d.year + daysBeforeMonth d.year d.month + d.day

theorem daysInMonth_congr (year month : Nat) :
    daysInMonth (if isLeap year then 4 else 1) month = daysInMonth year month := by
  cases h : isLeap year <;> simp [daysInMonth, h] <;> rfl

theorem daysBeforeMonth_congr (year month : Nat) :
    daysBeforeMonth (if isLeap year then 4 else 1) month = daysBeforeMonth year month := by
  simp only [daysBeforeMonth]
  congr 1
  exact List.map_congr_left fun m _ => daysInMonth_congr year (m + 1)

theorem Date.two_le_ordinal (d : Date) (h : 2 ≤ d.year) : 2 ≤ d.ordinal := by
  have hday := d.day_range.1
  simp only [Date.ordinal, daysBeforeYear]
  omega

/-- No year has more than 365 days but a leap year. -/
theorem dayOfYear_le (leap : Bool) : ∀ month, 1 ≤ month → month ≤ 12 →
    daysBeforeMonth (if leap then 4 else 1) month +
      daysInMonth (if leap then 4 else 1) month ≤ 365 + leap.toNat := by
  intro month h1 h2
  cases leap <;> interval_cases month <;> decide

theorem Date.ordinal_lt (d : Date) (h : d.year ≤ 9998) : d.ordinal < 3652059 := by
  have hyear := d.year_range.1
  have hday := d.day_range.2
  have hdays := dayOfYear_le (isLeap d.year) d.month d.month_range.1 d.month_range.2
  rw [daysInMonth_congr, daysBeforeMonth_congr] at hdays
  have hbit := Bool.toNat_le (isLeap d.year)
  simp only [Date.ordinal, daysBeforeYear]
  omega

/-- The last date is 31 December of year 9999. -/
theorem Date.ordinal_le (d : Date) : d.ordinal ≤ 3652059 := by
  have hyear := d.year_range
  have hday := d.day_range.2
  have hdays := dayOfYear_le (isLeap d.year) d.month d.month_range.1 d.month_range.2
  rw [daysInMonth_congr, daysBeforeMonth_congr] at hdays
  have hleap : d.year = 9999 → (isLeap d.year).toNat = 0 := by
    intro hlast
    rw [hlast]
    rfl
  have hbit := Bool.toNat_le (isLeap d.year)
  simp only [Date.ordinal, daysBeforeYear]
  omega

theorem Date.one_le_ordinal (d : Date) : 1 ≤ d.ordinal := by
  have hday := d.day_range.1
  simp only [Date.ordinal]
  omega

/-- The month of a zero-based day of the year, and the day in it. -/
def monthAndDay (leap : Bool) : Nat → Nat → Nat → Nat × Nat
  | 0, month, n => (month, n + 1)
  | fuel + 1, month, n =>
      let days := daysInMonth (if leap then 4 else 1) month
      if n < days then (month, n + 1) else monthAndDay leap fuel (month + 1) (n - days)

/-- Year and zero-based day of the year, by the cycles of 400, 100, 4 and 1 years. -/
def yearAndDay (ordinal : Nat) : Nat × Nat :=
  let n := ordinal - 1
  let n400 := n / 146097
  let n100 := n % 146097 / 36524
  let n4 := n % 146097 % 36524 / 1461
  let n1 := n % 146097 % 36524 % 1461 / 365
  let year := n400 * 400 + n100 * 100 + n4 * 4 + n1
  if n1 = 4 ∨ n100 = 4 then (year, 365)
  else (year + 1, n % 146097 % 36524 % 1461 % 365)

/-- `date.fromordinal`, with the error of date arithmetic that leaves the range. -/
def Date.ofOrdinal (ordinal : Int) : Except Exn Date :=
  if 1 ≤ ordinal ∧ ordinal ≤ 3652059 then
    let (year, n) := yearAndDay ordinal.toNat
    let (month, day) := monthAndDay (isLeap year) 11 1 n
    Date.make year month day
  else raise .overflowError

theorem monthAndDay_valid : ∀ leap : Bool, ∀ n < 365 + leap.toNat,
    (1 ≤ (monthAndDay leap 11 1 n).1 ∧ (monthAndDay leap 11 1 n).1 ≤ 12) ∧
      1 ≤ (monthAndDay leap 11 1 n).2 ∧
      (monthAndDay leap 11 1 n).2 ≤
        daysInMonth (if leap then 4 else 1) (monthAndDay leap 11 1 n).1 := by
  decide +kernel

/-- The last day of a leap year closes a cycle of 4 or of 400 years. -/
theorem yearAndDay_valid {n : Nat} (h1 : 1 ≤ n) (h2 : n ≤ 3652059) :
    (1 ≤ (yearAndDay n).1 ∧ (yearAndDay n).1 ≤ 9999) ∧
      (yearAndDay n).2 < 365 + (isLeap (yearAndDay n).1).toNat := by
  unfold yearAndDay
  dsimp only
  split
  · rename_i hlast
    have hleap : isLeap ((n - 1) / 146097 * 400 + (n - 1) % 146097 / 36524 * 100 +
        (n - 1) % 146097 % 36524 / 1461 * 4 + (n - 1) % 146097 % 36524 % 1461 / 365) = true := by
      simp only [isLeap, Bool.and_eq_true, Bool.or_eq_true, decide_eq_true_eq]
      omega
    rw [hleap]
    exact ⟨by omega, Nat.lt_succ_self 365⟩
  · refine ⟨by omega, ?_⟩
    have hlt : (n - 1) % 146097 % 36524 % 1461 % 365 < 365 := Nat.mod_lt _ (by decide)
    dsimp only
    omega

/-- Every day from 1 January of year 1 to 31 December of year 9999 is a date. -/
theorem Date.ofOrdinal_ok {ordinal : Int} (h1 : 1 ≤ ordinal) (h2 : ordinal ≤ 3652059) :
    ∃ d, Date.ofOrdinal ordinal = .ok d := by
  have hy := yearAndDay_valid (n := ordinal.toNat) (by omega) (by omega)
  have hm := monthAndDay_valid (isLeap (yearAndDay ordinal.toNat).1) _ hy.2
  rw [daysInMonth_congr] at hm
  refine ⟨⟨_, _, _, hy.1, hm.1, hm.2⟩, ?_⟩
  simp only [Date.ofOrdinal, Date.make]
  rw [if_pos ⟨h1, h2⟩]
  exact dif_pos ⟨hy.1, hm.1, hm.2⟩

/-! ### Time of day and offset -/

structure Time where
  hour : Nat
  minute : Nat
  second : Nat
  microsecond : Nat
  valid : hour < 24 ∧ minute < 60 ∧ second < 60 ∧ microsecond < 1000000
deriving DecidableEq

def Time.make (hour minute second microsecond : Nat) : Except Exn Time :=
  if h : hour < 24 ∧ minute < 60 ∧ second < 60 ∧ microsecond < 1000000 then
    .ok ⟨hour, minute, second, microsecond, h⟩
  else raise .valueError

def Time.midnight : Time := ⟨0, 0, 0, 0, by decide⟩

theorem Time.make_self (t : Time) :
    Time.make t.hour t.minute t.second t.microsecond = .ok t := by
  simp only [Time.make]
  rw [dif_pos t.valid]

def Time.micros (t : Time) : Int :=
  ((t.hour * 60 + t.minute) * 60 + t.second) * 1000000 + t.microsecond

def dayMicros : Int := 86400000000

/-- A UTC offset in microseconds, strictly within one day. -/
structure Offset where
  micros : Int
  valid : -dayMicros < micros ∧ micros < dayMicros
deriving DecidableEq

def Offset.make (micros : Int) : Except Exn Offset :=
  if h : -dayMicros < micros ∧ micros < dayMicros then .ok ⟨micros, h⟩
  else raise .valueError

def Offset.utc : Offset := ⟨0, by decide⟩

structure DateTime where
  date : Date
  time : Time
  offset : Option Offset
deriving DecidableEq

/-- An aware value with offset zero, as `datetime.now(timezone.utc)` returns. -/
structure UtcTime where
  date : Date
  time : Time
deriving DecidableEq

def UtcTime.toDateTime (t : UtcTime) : DateTime := ⟨t.date, t.time, some .utc⟩

/-- Microseconds since the start of year 1, UTC. -/
def UtcTime.instant (t : UtcTime) : Int := (t.date.ordinal - 1) * dayMicros + t.time.micros

/-- `(a - b).total_seconds()`, exactly. -/
def UtcTime.secondsSince (a b : UtcTime) : Rat := ((a.instant - b.instant : Int) : Rat) / 1000000

/-- The instant of an aware value. -/
def DateTime.instant? (d : DateTime) : Option Int :=
  d.offset.map fun o => (d.date.ordinal - 1) * dayMicros + d.time.micros - o.micros

/-- Microseconds since the start of year 1 by the value's own clock. -/
def DateTime.localMicros (d : DateTime) : Int := (d.date.ordinal - 1) * dayMicros + d.time.micros

/-- `a < b`: instants where both are aware, local times where none is, else an error. -/
def DateTime.before (a b : DateTime) : Except Exn Bool :=
  match a.instant?, b.instant? with
  | some i, some j => .ok (i < j)
  | none, none => .ok (a.localMicros < b.localMicros)
  | _, _ => raise .typeError

theorem DateTime.before_aware {a b : DateTime} {i j : Int} (ha : a.instant? = some i)
    (hb : b.instant? = some j) : a.before b = .ok (decide (i < j)) := by
  rw [DateTime.before, ha, hb]

theorem DateTime.aware_iff (d : DateTime) : d.offset ≠ none ↔ ∃ i, d.instant? = some i := by
  rw [DateTime.instant?]
  cases d.offset with
  | none => exact iff_of_false (fun h => h rfl) nofun
  | some o => exact iff_of_true nofun ⟨_, rfl⟩

/-- `astimezone(timezone.utc)` of an aware value with the given local date, time and offset. -/
def toUtc (date : Date) (time : Time) (offset : Offset) : Except Exn UtcTime := do
  let local' := time.micros - offset.micros
  let date' ← Date.ofOrdinal (date.ordinal + local' / dayMicros)
  let us := (local' % dayMicros).toNat
  let time' ← Time.make (us / 3600000000) (us / 60000000 % 60) (us / 1000000 % 60) (us % 1000000)
  return ⟨date', time'⟩

theorem Time.micros_range (t : Time) : 0 ≤ t.micros ∧ t.micros < dayMicros := by
  have h := t.valid
  simp only [Time.micros, dayMicros]
  omega

/-- The conversion to UTC succeeds where the day stays in the calendar. -/
theorem toUtc_of_range {date : Date} {time : Time} {offset : Offset}
    (h1 : 1 ≤ date.ordinal + (time.micros - offset.micros) / dayMicros)
    (h2 : date.ordinal + (time.micros - offset.micros) / dayMicros ≤ 3652059) :
    ∃ t, toUtc date time offset = .ok t := by
  obtain ⟨d, hd⟩ := Date.ofOrdinal_ok h1 h2
  have hus : ((time.micros - offset.micros) % dayMicros).toNat < 86400000000 := by
    rw [dayMicros]
    omega
  rw [toUtc]
  dsimp only
  rw [hd]
  rw [Time.make]
  rw [dif_pos (by omega)]
  exact ⟨_, rfl⟩

/-- Beyond the calendar there is no date to convert to. -/
theorem toUtc_of_outside {date : Date} {time : Time} {offset : Offset}
    (h : ¬ (1 ≤ date.ordinal + (time.micros - offset.micros) / dayMicros ∧
      date.ordinal + (time.micros - offset.micros) / dayMicros ≤ 3652059)) :
    toUtc date time offset = raise .overflowError := by
  have hday : Date.ofOrdinal (date.ordinal + (time.micros - offset.micros) / dayMicros) =
      raise .overflowError := if_neg h
  rw [toUtc]
  dsimp only
  rw [hday]
  rfl

/-- An instant between the first and the last of the calendar. -/
def InCalendar (instant : Int) : Prop := 0 ≤ instant ∧ instant < 3652059 * dayMicros

theorem inCalendar_iff (date : Date) (time : Time) (offset : Offset) :
    InCalendar ((date.ordinal - 1) * dayMicros + time.micros - offset.micros) ↔
      1 ≤ date.ordinal + (time.micros - offset.micros) / dayMicros ∧
        date.ordinal + (time.micros - offset.micros) / dayMicros ≤ 3652059 := by
  rw [InCalendar, dayMicros]
  omega

/-- The conversion to UTC succeeds for instants of the calendar, and overflows for others. -/
theorem toUtc_cases (date : Date) (time : Time) (offset : Offset) :
    (InCalendar ((date.ordinal - 1) * dayMicros + time.micros - offset.micros) ∧
        ∃ t, toUtc date time offset = .ok t) ∨
      (¬ InCalendar ((date.ordinal - 1) * dayMicros + time.micros - offset.micros) ∧
        toUtc date time offset = raise .overflowError) := by
  rw [inCalendar_iff]
  by_cases hin : 1 ≤ date.ordinal + (time.micros - offset.micros) / dayMicros ∧
      date.ordinal + (time.micros - offset.micros) / dayMicros ≤ 3652059
  · exact .inl ⟨hin, toUtc_of_range hin.1 hin.2⟩
  · exact .inr ⟨hin, toUtc_of_outside hin⟩

/-- Away from the ends of the calendar the conversion to UTC succeeds. -/
theorem toUtc_ok {date : Date} (time : Time) (offset : Offset) (h1 : 2 ≤ date.ordinal)
    (h2 : date.ordinal < 3652059) : ∃ t, toUtc date time offset = .ok t := by
  have ht := time.micros_range
  have ho := offset.valid
  have hday : -1 ≤ (time.micros - offset.micros) / dayMicros ∧
      (time.micros - offset.micros) / dayMicros ≤ 1 := by
    rw [dayMicros] at *
    omega
  exact toUtc_of_range (by omega) (by omega)

/-! ### ISO 8601 -/

/-- `f"{n:0{width}d}"`. -/
def padded (width n : Nat) : Text :=
  List.replicate (width - (natText n).length) 48 ++ natText n

def Date.isoformat (d : Date) : Text :=
  padded 4 d.year ++ 45 :: padded 2 d.month ++ 45 :: padded 2 d.day

/-- Hours, minutes and seconds with the chosen fraction. -/
def Time.isoformat (fraction : Text) (t : Time) : Text :=
  padded 2 t.hour ++ 58 :: padded 2 t.minute ++ 58 :: padded 2 t.second ++ fraction

def Offset.isoformat (o : Offset) : Text :=
  let us := o.micros.natAbs
  (if o.micros < 0 then [45] else [43]) ++ padded 2 (us / 3600000000) ++
    58 :: padded 2 (us / 60000000 % 60) ++
    (if us % 60000000 = 0 then [] else 58 :: padded 2 (us / 1000000 % 60)) ++
    (if us % 1000000 = 0 then [] else 46 :: padded 6 (us % 1000000))

def DateTime.isoformatWith (fraction : Text) (d : DateTime) : Text :=
  d.date.isoformat ++ 84 :: d.time.isoformat fraction ++
    (d.offset.map Offset.isoformat).getD []

/-- `isoformat()`: no fraction where the microseconds are zero. -/
def DateTime.isoformat (d : DateTime) : Text :=
  d.isoformatWith (if d.time.microsecond = 0 then [] else 46 :: padded 6 d.time.microsecond)

/-- `isoformat(timespec="milliseconds")`. -/
def DateTime.isoformatMilliseconds (d : DateTime) : Text :=
  d.isoformatWith (46 :: padded 3 (d.time.microsecond / 1000))

def isAsciiDigit (c : Nat) : Bool := 48 ≤ c && c ≤ 57

/-- Exactly `n` ASCII digits. -/
def digits? : Nat → Text → Option (Nat × Text)
  | n, s =>
      if n ≤ s.length ∧ (s.take n).all isAsciiDigit then
        some (ofDigits ((s.take n).map (· - 48)), s.drop n)
      else none

/-- Where the date ends. Without separators a week date may or may not carry a
day: an even number of digits after `Www` belongs to the time. -/
def dateLength (s : Text) : Nat :=
  if s.length = 7 then 7
  else if s.getD 4 0 = 45 then
    if s.getD 5 0 = 87 then
      if s.getD 8 0 = 45 then
        if 10 < s.length ∧ isAsciiDigit (s.getD 10 0) then 8 else 10
      else 8
    else 10
  else if s.getD 4 0 = 87 then
    let stop := 7 + ((s.drop 7).takeWhile isAsciiDigit).length
    if stop < 9 then stop else if stop % 2 = 0 then 7 else 8
  else 8

/-- The date of an ISO week date. -/
def ofIsoWeek (year week day : Nat) : Option Date :=
  let first := daysBeforeYear year + 1
  let weekday := (first + 6) % 7
  let long := weekday = 3 ∨ (weekday = 2 ∧ isLeap year)
  if 1 ≤ year ∧ 1 ≤ week ∧ (week < 53 ∨ week = 53 ∧ long) ∧ 1 ≤ day ∧ day ≤ 7 then
    let monday : Int := first - weekday + if 3 < weekday then 7 else 0
    (Date.ofOrdinal (monday + (week - 1) * 7 + day - 1)).toOption
  else none

/-- The separator `-`, where the date uses it. -/
def dash? (separated : Bool) (s : Text) : Option Text :=
  if separated then (if s.head? = some 45 then some (s.drop 1) else none) else some s

def isoDate? (length : Nat) (s : Text) : Option Date := do
  let (year, r) ← digits? 4 s
  let separated : Bool := r.head? = some 45
  let r ← dash? separated r
  if r.head? = some 87 then
    let (week, r) ← digits? 2 (r.drop 1)
    if 7 + separated.toNat < length then
      let (day, _) ← digits? 1 (← dash? separated r)
      ofIsoWeek year week day
    else ofIsoWeek year week 1
  else
    let (month, r) ← digits? 2 r
    let (day, _) ← digits? 2 (← dash? separated r)
    (Date.make year month day).toOption

/-- Up to six digits of a fraction; further digits are skipped. The flag says
that something else follows, `next` standing after the end. -/
def fraction? (next : Nat) (s : Text) : Option (Nat × Bool) :=
  (digits? (min 6 s.length) s).map fun (n, r) =>
    (n * 10 ^ (6 - min 6 s.length), (r.dropWhile isAsciiDigit).headD next ≠ 0)

/-- `HH[:?MM[:?SS[.fraction]]]`: the numbers read, the microseconds, and whether
text is left over. One character before the end is left over, not an error. -/
def clock? (next : Nat) : Nat → Option Bool → Text → Option (List Nat × Nat × Bool)
  | 0, _, s => (fraction? next s).map fun (us, more) => ([], us, more)
  | n + 1, separated?, s =>
      (digits? 2 s).bind fun (v, r) =>
        let c := r.headD next
        let separated := separated?.getD (c = 58)
        if r.drop 1 = [] ∧ c < 128 then some ([v], 0, c ≠ 0)
        else if separated ∧ c = 58 then
          (clock? next n (some separated) (r.drop 1)).map fun (vs, x) => (v :: vs, x)
        else if c = 46 ∨ c = 44 then
          (fraction? next (r.drop 1)).map fun (us, more) => ([v], us, more)
        else if !separated then
          (clock? next n (some separated) r).map fun (vs, x) => (v :: vs, x)
        else none

def isZoneMark (c : Nat) : Bool := c = 43 || c = 45 || c = 90

def offset? (mark : Nat) (s : Text) : Option Offset :=
  if mark = 90 then if s.headD 0 = 0 then some .utc else none
  else (clock? 0 3 none s).bind fun (vs, us, more) =>
    let seconds : Int := (vs.getD 0 0 * 60 + vs.getD 1 0) * 60 + vs.getD 2 0
    if more then none
    else if seconds = 0 then some .utc
    else (Offset.make ((if mark = 45 then -1 else 1) * (seconds * 1000000 + us))).toOption

def isoTime? (s : Text) : Option (Time × Option Offset) := do
  let body := s.takeWhile fun c => !isZoneMark c
  let zone := s.dropWhile fun c => !isZoneMark c
  let (vs, us, more) ← clock? (zone.headD 0) 3 none body
  let time ← (Time.make (vs.getD 0 0) (vs.getD 1 0) (vs.getD 2 0) us).toOption
  match zone with
  | [] => if more then none else return (time, none)
  | mark :: r => return (time, some (← offset? mark r))

/-- `datetime.fromisoformat`, or nothing where it raises `ValueError`. Any one
character may stand between date and time. -/
def fromisoformat? (s : Text) : Option DateTime :=
  if s.length < 7 then none
  else do
    let n := dateLength s
    let date ← isoDate? n s
    let midnight : DateTime := ⟨date, ⟨0, 0, 0, 0, by decide⟩, none⟩
    match s.drop n with
    | [] => some midnight
    | _ :: rest =>
        let (time, offset) ← isoTime? rest
        some ⟨date, time, offset⟩

def fromisoformat (s : Text) : Except Exn DateTime :=
  match fromisoformat? s with
  | some d => .ok d
  | none => raise .valueError

end Python
