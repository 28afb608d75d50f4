import NexusBackend.Library.DateTime

/-!
`datetime.fromisoformat` of what `isoformat` prints, for a date and a time in UTC: with
microseconds or without, and cut to milliseconds. Other offsets are not covered.
-/
namespace Python

/-! ### Padded numbers -/

/-- The digits of a number below `10 ^ width`, with leading zeros. -/
def paddedDigits (width n : Nat) : List Nat :=
  List.replicate (width - (natDigits n).length) 0 ++ natDigits n

theorem padded_eq (width n : Nat) : padded width n = digitText (paddedDigits width n) := by
  have hzeros (k : Nat) : List.replicate k 48 = digitText (List.replicate k 0) := by
    simp [digitText]
  rw [padded, paddedDigits, digitText_append, natText, length_digitText, hzeros]

theorem length_padded {width n : Nat} (hw : 0 < width) (h : n < 10 ^ width) :
    (padded width n).length = width := by
  have hle := length_natDigits_le hw h
  rw [padded_eq, length_digitText, paddedDigits, List.length_append, List.length_replicate]
  omega

theorem paddedDigits_lt {width n d : Nat} (h : d ∈ paddedDigits width n) : d < 10 := by
  obtain h | h := List.mem_append.mp h
  · rw [List.eq_of_mem_replicate h]
    decide
  · exact natDigits_lt h

theorem ofDigits_paddedDigits (width n : Nat) : ofDigits (paddedDigits width n) = n := by
  rw [paddedDigits, ofDigits_append, ofDigits_replicate_zero, Nat.zero_mul, Nat.zero_add,
    ofDigits_natDigits]

theorem isAsciiDigit_iff {c : Nat} : isAsciiDigit c = true ↔ 48 ≤ c ∧ c ≤ 57 := by
  rw [isAsciiDigit, Bool.and_eq_true, decide_eq_true_eq, decide_eq_true_eq]

theorem padded_isDigit {width n c : Nat} (h : c ∈ padded width n) : isAsciiDigit c = true := by
  rw [padded_eq] at h
  obtain ⟨d, hd, rfl⟩ := List.mem_map.mp h
  have hlt := paddedDigits_lt hd
  exact isAsciiDigit_iff.mpr ⟨by omega, by omega⟩

/-- A padded number is read back, whatever follows it. -/
theorem digits?_padded {width n : Nat} (hw : 0 < width) (h : n < 10 ^ width) (rest : Text) :
    digits? width (padded width n ++ rest) = some (n, rest) := by
  have hlen := length_padded hw h
  have htake : (padded width n ++ rest).take width = padded width n := by
    rw [List.take_append_of_le_length (Nat.le_of_eq hlen.symm), List.take_of_length_le
      (Nat.le_of_eq hlen)]
  have hdrop : (padded width n ++ rest).drop width = rest := List.drop_left' hlen
  have hall : (padded width n).all isAsciiDigit = true :=
    List.all_eq_true.mpr fun c hc => padded_isDigit hc
  have hvalue : ofDigits ((padded width n).map (· - 48)) = n := by
    have hback : (padded width n).map (· - 48) = paddedDigits width n := by
      rw [padded_eq, digitText, List.map_map]
      refine (List.map_congr_left fun d _ => ?_).trans (List.map_id _)
      exact Nat.add_sub_cancel_left 48 d
    rw [hback, ofDigits_paddedDigits]
  have hle : width ≤ (padded width n ++ rest).length := by
    rw [List.length_append]
    omega
  rw [digits?, htake, hdrop, if_pos ⟨hle, hall⟩, hvalue]

/-! ### Dates -/

theorem month_lt (d : Date) : d.month < 10 ^ 2 := by
  have := d.month_range.2
  omega

theorem day_lt (d : Date) : d.day < 10 ^ 2 := by
  have hday := d.day_range.2
  have hlen : daysInMonth d.year d.month ≤ 31 := by
    rw [daysInMonth]
    split_ifs <;> omega
  omega

theorem year_lt (d : Date) : d.year < 10 ^ 4 := by
  have := d.year_range.2
  omega

theorem head_padded {width n : Nat} (hw : 0 < width) (h : n < 10 ^ width) (rest : Text) :
    ∃ c, (padded width n ++ rest).head? = some c ∧ isAsciiDigit c = true := by
  have hlen := length_padded hw h
  obtain ⟨c, tail, hc⟩ := List.exists_cons_of_length_pos (by rw [hlen]; exact hw)
  refine ⟨c, by rw [hc]; rfl, ?_⟩
  exact padded_isDigit (by rw [hc]; exact List.mem_cons_self)

theorem isoDate?_isoformat (d : Date) (rest : Text) :
    isoDate? 10 (d.isoformat ++ rest) = some d := by
  have hyear := digits?_padded (by decide) (year_lt d)
    (45 :: (padded 2 d.month ++ 45 :: (padded 2 d.day ++ rest)))
  have hmonth := digits?_padded (by decide) (month_lt d) (45 :: (padded 2 d.day ++ rest))
  have hday := digits?_padded (by decide) (day_lt d) rest
  have htext : d.isoformat ++ rest =
      padded 4 d.year ++ 45 :: (padded 2 d.month ++ 45 :: (padded 2 d.day ++ rest)) := by
    simp [Date.isoformat, List.append_assoc]
  obtain ⟨c, hc, hdigit⟩ :=
    head_padded (by decide) (month_lt d) (45 :: (padded 2 d.day ++ rest))
  have hne : ¬(padded 2 d.month ++ 45 :: (padded 2 d.day ++ rest)).head? = some 87 := by
    intro h
    rw [hc] at h
    cases h
    cases hdigit
  rw [htext, isoDate?, hyear]
  simp only [Option.bind_eq_bind, Option.bind_some, List.head?_cons, decide_true, dash?,
    if_true, List.drop_succ_cons, List.drop_zero, hne, if_false, hmonth, hday, Date.make_self]
  rfl

theorem length_date_isoformat (d : Date) : d.isoformat.length = 10 := by
  rw [Date.isoformat, List.length_append, List.length_append, List.length_cons, List.length_cons,
    length_padded (by decide) (year_lt d), length_padded (by decide) (month_lt d),
    length_padded (by decide) (day_lt d)]

/-- A date with dashes ends after ten characters. -/
theorem dateLength_isoformat (d : Date) (rest : Text) :
    dateLength (d.isoformat ++ rest) = 10 := by
  have hyear := length_padded (by decide) (year_lt d)
  obtain ⟨c, hc, hdigit⟩ := head_padded (by decide) (month_lt d) (45 :: (padded 2 d.day ++ rest))
  obtain ⟨tail, htail⟩ := List.head?_eq_some_iff.mp hc
  have htext : d.isoformat ++ rest = padded 4 d.year ++ 45 :: c :: tail := by
    rw [← htail]
    simp [Date.isoformat, List.append_assoc]
  have hlen : (d.isoformat ++ rest).length ≠ 7 := by
    rw [List.length_append, length_date_isoformat]
    omega
  have hdash : (d.isoformat ++ rest).getD 4 0 = 45 := by
    rw [htext, List.getD_eq_getElem?_getD, List.getElem?_append_right (by omega), hyear]
    rfl
  have hmonth : (d.isoformat ++ rest).getD 5 0 = c := by
    rw [htext, List.getD_eq_getElem?_getD, List.getElem?_append_right (by omega), hyear]
    rfl
  have hne : c ≠ 87 := by
    intro h
    rw [h] at hdigit
    cases hdigit
  rw [dateLength, if_neg hlen, hdash, if_pos rfl, hmonth, if_neg hne]

/-! ### Times -/

theorem fraction?_padded {width n : Nat} (hw : 0 < width) (h6 : width ≤ 6) (h : n < 10 ^ width)
    (next : Nat) :
    fraction? next (padded width n) = some (n * 10 ^ (6 - width), decide (next ≠ 0)) := by
  have hread := digits?_padded hw h []
  rw [List.append_nil] at hread
  rw [fraction?, length_padded hw h, Nat.min_eq_right h6, hread]
  rfl

theorem second_lt (t : Time) : t.second < 10 ^ 2 := by
  have := t.valid
  omega

/-- The seconds, where no fraction follows. -/
theorem clock?_seconds {next n : Nat} (hnext : next < 128) (h : n < 10 ^ 2) :
    clock? next 1 (some true) (padded 2 n) = some ([n], 0, decide (next ≠ 0)) := by
  have hread := digits?_padded (by decide) h []
  rw [List.append_nil] at hread
  rw [clock?, hread]
  simp only [Option.bind_some, List.headD_nil, List.drop_nil, true_and, hnext, if_true]
  rfl

/-- The seconds with their fraction. -/
theorem clock?_fraction {width n us : Nat} (hw : 0 < width) (h6 : width ≤ 6) (h : n < 10 ^ 2)
    (hus : us < 10 ^ width) (next : Nat) :
    clock? next 1 (some true) (padded 2 n ++ 46 :: padded width us) =
      some ([n], us * 10 ^ (6 - width), decide (next ≠ 0)) := by
  have hne : padded width us ≠ [] := by
    intro hnil
    have hlen := length_padded hw hus
    rw [hnil, List.length_nil] at hlen
    omega
  rw [clock?, digits?_padded (by decide) h]
  simp [hne, fraction?_padded hw h6 hus]

/-- Hours and minutes, whatever the seconds come to. -/
theorem clock?_isoformat {next : Nat} {t : Time} {fraction : Text} {us : Nat} {more : Bool}
    (h : clock? next 1 (some true) (padded 2 t.second ++ fraction) =
      some ([t.second], us, more)) :
    clock? next 3 none (t.isoformat fraction) =
      some ([t.hour, t.minute, t.second], us, more) := by
  have hvalid := t.valid
  have htext : t.isoformat fraction = padded 2 t.hour ++ 58 ::
      (padded 2 t.minute ++ 58 :: (padded 2 t.second ++ fraction)) := by
    simp [Time.isoformat, List.append_assoc]
  have hhour := digits?_padded (by decide) (show t.hour < 10 ^ 2 by omega)
    (58 :: (padded 2 t.minute ++ 58 :: (padded 2 t.second ++ fraction)))
  have hminute := digits?_padded (by decide) (show t.minute < 10 ^ 2 by omega)
    (58 :: (padded 2 t.second ++ fraction))
  have hne (n : Nat) (hn : n < 10 ^ 2) (rest : Text) : padded 2 n ++ rest ≠ [] := by
    intro hnil
    have hlen := length_padded (by decide) hn
    rw [(List.append_eq_nil_iff.mp hnil).1, List.length_nil] at hlen
    omega
  rw [htext, clock?, hhour]
  simp only [Option.bind_some, List.headD_cons, List.drop_succ_cons, List.drop_zero,
    hne t.minute (by omega), false_and, if_false, Option.getD_none, decide_true, and_self, if_true]
  rw [clock?, hminute]
  simp only [Option.bind_some, List.headD_cons, List.drop_succ_cons, List.drop_zero,
    hne t.second (by omega), false_and, if_false, Option.getD_some, and_self, if_true]
  rw [h]
  rfl

/-- No character of a clock is the mark of a zone. -/
theorem notZoneMark_isoformat {t : Time} {fraction : Text}
    (hfraction : ∀ c ∈ fraction, c = 46 ∨ isAsciiDigit c = true) :
    ∀ c ∈ t.isoformat fraction, (!isZoneMark c) = true := by
  have hdigit (c : Nat) (hc : isAsciiDigit c = true) : (!isZoneMark c) = true := by
    rw [isAsciiDigit_iff] at hc
    simp only [isZoneMark, Bool.not_eq_true', Bool.or_eq_false_iff, decide_eq_false_iff_not]
    omega
  intro c hc
  simp only [Time.isoformat, List.mem_append, List.mem_cons] at hc
  obtain ((hc | rfl | hc) | rfl | hc) | hc := hc
  · exact hdigit c (padded_isDigit hc)
  · rfl
  · exact hdigit c (padded_isDigit hc)
  · rfl
  · exact hdigit c (padded_isDigit hc)
  · obtain rfl | hc := hfraction c hc
    · rfl
    · exact hdigit c hc

/-- A clock in UTC. -/
theorem isoTime?_isoformat {t t' : Time} {fraction : Text} {us : Nat} {more : Bool}
    (hfraction : ∀ c ∈ fraction, c = 46 ∨ isAsciiDigit c = true)
    (h : clock? 43 1 (some true) (padded 2 t.second ++ fraction) = some ([t.second], us, more))
    (hmake : Time.make t.hour t.minute t.second us = .ok t') :
    isoTime? (t.isoformat fraction ++ Offset.utc.isoformat) = some (t', some .utc) := by
  have hmarks := notZoneMark_isoformat (t := t) hfraction
  have hzone : Offset.utc.isoformat = 43 :: text "00:00" := by decide
  have hoffset : offset? 43 (text "00:00") = some .utc := by decide
  have hbody : (t.isoformat fraction ++ 43 :: text "00:00").takeWhile (fun c => !isZoneMark c) =
      t.isoformat fraction := by
    rw [List.takeWhile_append_of_pos hmarks]
    simp [isZoneMark]
  have hrest : (t.isoformat fraction ++ 43 :: text "00:00").dropWhile (fun c => !isZoneMark c) =
      43 :: text "00:00" := by
    rw [List.dropWhile_append_of_pos hmarks]
    simp [isZoneMark]
  rw [hzone, isoTime?, hbody, hrest]
  dsimp only [List.headD_cons]
  rw [clock?_isoformat h]
  simp [hmake, hoffset, Except.toOption]

/-! ### Dates with times -/

theorem fromisoformat?_isoformatWith {t : UtcTime} {t' : Time} {fraction : Text}
    (h : isoTime? (t.time.isoformat fraction ++ Offset.utc.isoformat) = some (t', some .utc)) :
    fromisoformat? (t.toDateTime.isoformatWith fraction) =
      some (UtcTime.toDateTime ⟨t.date, t'⟩) := by
  have htext : t.toDateTime.isoformatWith fraction =
      t.date.isoformat ++ 84 :: (t.time.isoformat fraction ++ Offset.utc.isoformat) := by
    simp [DateTime.isoformatWith, UtcTime.toDateTime]
  have hlen := length_date_isoformat t.date
  have hdrop : (t.date.isoformat ++ 84 :: (t.time.isoformat fraction ++
      Offset.utc.isoformat)).drop 10 =
        84 :: (t.time.isoformat fraction ++ Offset.utc.isoformat) := List.drop_left' hlen
  rw [htext, fromisoformat?, if_neg (by rw [List.length_append, hlen]; omega),
    dateLength_isoformat]
  dsimp only
  rw [isoDate?_isoformat, hdrop]
  dsimp only [Option.bind_eq_bind, Option.bind_some]
  rw [h]
  rfl

/-- What `isoformat` prints of a time in UTC is read as that time. -/
theorem fromisoformat?_isoformat (t : UtcTime) :
    fromisoformat? t.toDateTime.isoformat = some t.toDateTime := by
  have hvalid := t.time.valid
  rw [DateTime.isoformat]
  apply fromisoformat?_isoformatWith
  change isoTime? (t.time.isoformat (if t.time.microsecond = 0 then [] else
    46 :: padded 6 t.time.microsecond) ++ Offset.utc.isoformat) = _
  split
  · rename_i hzero
    have hread := clock?_seconds (show 43 < 128 by decide) (second_lt t.time)
    rw [← hzero, ← List.append_nil (padded 2 t.time.second)] at hread
    exact isoTime?_isoformat nofun hread (Time.make_self t.time)
  · have hread := clock?_fraction (by decide) (by decide) (second_lt t.time)
      (show t.time.microsecond < 10 ^ 6 by omega) 43
    rw [Nat.sub_self, Nat.pow_zero, Nat.mul_one] at hread
    refine isoTime?_isoformat ?_ hread (Time.make_self t.time)
    intro c hc
    exact (List.mem_cons.mp hc).imp id padded_isDigit

theorem padded_ascii {width n c : Nat} (h : c ∈ padded width n) : c < 128 := by
  have hdigit := isAsciiDigit_iff.mp (padded_isDigit h)
  omega

theorem isoformatWith_ascii (t : UtcTime) {fraction : Text} (hfraction : ∀ c ∈ fraction, c < 128) :
    ∀ c ∈ t.toDateTime.isoformatWith fraction, c < 128 := by
  have hzone : ∀ c ∈ Offset.utc.isoformat, c < 128 := by decide
  intro c hc
  simp only [DateTime.isoformatWith, UtcTime.toDateTime, Option.map_some, Option.getD_some,
    Date.isoformat, Time.isoformat, List.mem_append, List.mem_cons] at hc
  obtain (((hc | rfl | hc) | rfl | hc) | rfl | (((hc | rfl | hc) | rfl | hc) | hc)) | hc := hc
  · exact padded_ascii hc
  · decide
  · exact padded_ascii hc
  · decide
  · exact padded_ascii hc
  · decide
  · exact padded_ascii hc
  · decide
  · exact padded_ascii hc
  · decide
  · exact padded_ascii hc
  · exact hfraction c hc
  · exact hzone c hc

theorem isoformat_ascii (t : UtcTime) : ∀ c ∈ t.toDateTime.isoformat, c < 128 := by
  apply isoformatWith_ascii
  intro c hc
  split at hc
  · cases hc
  · obtain rfl | hc := List.mem_cons.mp hc
    · decide
    · exact padded_ascii hc

theorem isoformatMilliseconds_ascii (t : UtcTime) :
    ∀ c ∈ t.toDateTime.isoformatMilliseconds, c < 128 := by
  apply isoformatWith_ascii
  intro c hc
  obtain rfl | hc := List.mem_cons.mp hc
  · decide
  · exact padded_ascii hc

/-- The time cut to milliseconds. -/
def Time.cutToMillis (t : Time) : Time :=
  ⟨t.hour, t.minute, t.second, t.microsecond / 1000 * 1000, by have := t.valid; omega⟩

theorem fromisoformat?_isoformatMilliseconds (t : UtcTime) :
    fromisoformat? t.toDateTime.isoformatMilliseconds =
      some (UtcTime.toDateTime ⟨t.date, t.time.cutToMillis⟩) := by
  have hvalid := t.time.valid
  rw [DateTime.isoformatMilliseconds]
  apply fromisoformat?_isoformatWith
  have hread := clock?_fraction (by decide) (by decide) (second_lt t.time)
    (show t.time.microsecond / 1000 < 10 ^ 3 by omega) 43
  refine isoTime?_isoformat ?_ hread (Time.make_self t.time.cutToMillis)
  intro c hc
  exact (List.mem_cons.mp hc).imp id padded_isDigit

end Python
