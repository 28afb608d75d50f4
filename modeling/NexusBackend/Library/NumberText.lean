import NexusBackend.Library.JsonText
import Mathlib.Tactic.LinearCombination

/-!
Printed numbers read back: the text of an integer, and the shortest text of a float, which
`float`, `Decimal` and the number scanner of JSON all read as one decimal numeral.
-/
namespace Python

/-! ### Decimal values -/

theorem two_pow_le_ten_pow {k n : Nat} (h : k ≤ 3 * n) : (2 : ℚ) ^ k ≤ 10 ^ n := by
  calc (2 : ℚ) ^ k ≤ 2 ^ (3 * n) := pow_le_pow_right₀ (by norm_num) h
    _ = 8 ^ n := by rw [pow_mul]; norm_num
    _ ≤ 10 ^ n := pow_le_pow_left₀ (by norm_num) (by norm_num) n

/-- Every finite float is below `10 ^ 400`. -/
theorem range_le_ten_pow : (2 : ℚ) ^ (1024 : Int) ≤ 10 ^ (400 : Int) :=
  two_pow_le_ten_pow (k := 1024) (n := 400) (by norm_num)

theorem ten_pow_le_tiny : (10 : ℚ) ^ (-401 : Int) ≤ 2 ^ (-1075 : Int) := by
  have hpow : (2 : ℚ) ^ ((1075 : Nat) : Int) ≤ 10 ^ ((401 : Nat) : Int) := by
    rw [zpow_natCast, zpow_natCast]
    exact two_pow_le_ten_pow (by norm_num)
  rw [zpow_neg, zpow_neg]
  exact inv_anti₀ (by positivity) hpow

/-- The shortcut for powers of ten far outside the range changes nothing. -/
theorem ofScientific_eq (negative : Bool) (coefficient : Nat) (exponent : Int) :
    Float.ofScientific negative coefficient exponent =
      .ofRat ((if negative then -1 else 1) * coefficient * pow10 exponent) := by
  unfold Float.ofScientific
  dsimp only
  rw [length_natText]
  by_cases hc : coefficient = 0
  · rw [if_pos (.inl hc), hc]
    simp [Float.ofRat]
  have h10 : (10 : ℚ) ≠ 0 := by norm_num
  have hcpos : (0 : ℚ) < coefficient := by exact_mod_cast Nat.pos_of_ne_zero hc
  have hupper : (coefficient : ℚ) < 10 ^ ((natDigits coefficient).length : Int) := by
    exact_mod_cast lt_pow_length_natDigits coefficient
  have hlower : (10 : ℚ) ^ (((natDigits coefficient).length : Int) - 1) ≤ coefficient := by
    have hlen := List.length_pos_of_ne_nil (natDigits_ne_nil coefficient)
    have h : ((10 ^ ((natDigits coefficient).length - 1) : Nat) : ℚ) ≤ coefficient := by
      exact_mod_cast pow_length_natDigits_le hc
    refine le_trans (le_of_eq ?_) h
    push_cast
    rw [← zpow_natCast]
    congr 1
    omega
  have habs : |(if negative then -1 else 1 : ℚ) * coefficient * pow10 exponent| =
      coefficient * 10 ^ exponent := by
    rw [pow10_eq_zpow, abs_mul, abs_mul, abs_of_pos hcpos,
      abs_of_pos (show (0 : ℚ) < 10 ^ exponent by positivity)]
    cases negative <;> simp
  generalize ((natDigits coefficient).length : Int) = len at *
  by_cases hsmall : coefficient = 0 ∨ exponent + len < -400
  · rw [if_pos hsmall]
    refine (ofRat_tiny ?_).symm
    rw [habs]
    calc (coefficient : ℚ) * 10 ^ exponent < 10 ^ len * 10 ^ exponent := by gcongr
      _ = 10 ^ (exponent + len) := by rw [← zpow_add₀ h10, add_comm]
      _ ≤ 10 ^ (-401 : Int) :=
          zpow_le_zpow_right₀ (by norm_num) (by have := hsmall.resolve_left hc; omega)
      _ ≤ 2 ^ (-1075 : Int) := ten_pow_le_tiny
  rw [if_neg hsmall]
  by_cases hlarge : 400 < exponent + len
  · have hhuge : (2 : ℚ) ^ (1024 : Int) ≤ coefficient * 10 ^ exponent := by
      calc (2 : ℚ) ^ (1024 : Int) ≤ 10 ^ (400 : Int) := range_le_ten_pow
        _ ≤ 10 ^ (len - 1 + exponent) := zpow_le_zpow_right₀ (by norm_num) (by omega)
        _ = 10 ^ (len - 1) * 10 ^ exponent := zpow_add₀ h10 _ _
        _ ≤ coefficient * 10 ^ exponent := by gcongr
    rw [if_pos hlarge, ofRat_huge (by rw [habs]; exact hhuge)]
    have hpos : (0 : ℚ) < coefficient * pow10 exponent := by
      rw [pow10_eq_zpow]
      positivity
    cases negative with
    | true => simpa using hpos
    | false => simpa using hpos.le
  · rw [if_neg hlarge]

/-! ### The digits of a float -/

theorem adjusted_lt {c : Nat} (hc : c ≠ 0) {e : Int} {k : Int} (h : (c : ℚ) * 10 ^ e < 10 ^ k) :
    e + (natText c).length - 1 < k := by
  have hlen := List.length_pos_of_ne_nil (natDigits_ne_nil c)
  have hle : (10 : ℚ) ^ ((natDigits c).length - 1) ≤ c := by
    exact_mod_cast pow_length_natDigits_le hc
  have hpow : (10 : ℚ) ^ ((((natDigits c).length - 1 : Nat) : Int) + e) < 10 ^ k := by
    rw [zpow_add₀ (by norm_num), zpow_natCast]
    exact lt_of_le_of_lt (by gcongr) h
  have hlt := (zpow_lt_zpow_iff_right₀ (by norm_num : (1 : ℚ) < 10)).mp hpow
  rw [length_natText]
  omega

/-- Digits that read back as the float, the decimal point after `point` of them. -/
structure ReadsBack (q : ℚ) (ds : List Nat) (point : Int) : Prop where
  digits : ∀ d ∈ ds, d < 10
  head : ∃ d rest, ds = d :: rest ∧ d ≠ 0
  value : Float.ofRat (ofDigits ds * 10 ^ (point - ds.length)) = .finite q
  place : -1100 ≤ point - ds.length

theorem trimZeros_append (ds : List Nat) :
    ∃ n, ds = trimZeros ds ++ List.replicate n 0 := by
  refine ⟨(ds.rtakeWhile (· = 0)).length, ?_⟩
  have hzeros : ds.rtakeWhile (· = 0) = List.replicate (ds.rtakeWhile (· = 0)).length 0 :=
    List.eq_replicate_of_mem fun d hd => by simpa using List.mem_rtakeWhile_imp hd
  rw [← hzeros]
  exact List.rdropWhile_append_rtakeWhile.symm

/-- The digits of a checked multiple of a power of ten read back without their zeros. -/
theorem readsBack_trimZeros {q : ℚ} (hq : q ≠ 0) {m : Nat} {place : Int}
    (hplace : -1100 ≤ place) (h : Float.ofRat (m * pow10 place) = .finite q) :
    ReadsBack q (trimZeros (natDigits m)) (place + (natDigits m).length) := by
  have hm : m ≠ 0 := by
    rintro rfl
    rw [Nat.cast_zero, zero_mul] at h
    exact hq (Float.finite.inj h).symm
  obtain ⟨n, hn⟩ := trimZeros_append (natDigits m)
  generalize trimZeros (natDigits m) = ds at hn ⊢
  have hvalue : (m : ℚ) = ofDigits ds * 10 ^ n := by
    have hdigits := congrArg ofDigits hn
    rw [ofDigits_natDigits, ofDigits_append, ofDigits_replicate_zero, List.length_replicate,
      add_zero] at hdigits
    exact_mod_cast hdigits
  have hlen : ((natDigits m).length : Int) = ds.length + n := by
    have hl := congrArg List.length hn
    simp only [List.length_append, List.length_replicate] at hl
    omega
  refine ⟨fun d hd => natDigits_lt (n := m) (by rw [hn]; exact List.mem_append_left _ hd), ?_,
    ?_, by omega⟩
  · cases ds with
    | nil =>
        rw [show ofDigits [] = 0 from rfl, Nat.cast_zero, zero_mul] at hvalue
        exact absurd hvalue (by exact_mod_cast hm)
    | cons d rest =>
        refine ⟨d, rest, rfl, ?_⟩
        have hhead := natDigits_head hm
        simp only [hn, List.cons_append, List.head_cons] at hhead
        exact hhead
  · rw [← h, hvalue, hlen, pow10_eq_zpow, mul_assoc, ← zpow_natCast,
      ← zpow_add₀ (by norm_num)]
    congr 3
    ring

/-- Far enough to the right, every dyadic value is a whole number of units. -/
theorem IsDyadic.roundHalfEven_unit {q : ℚ} (h : IsDyadic q) (hq : 0 < q) {place : Int}
    (hp : place ≤ -1074) : (((roundHalfEven (q / pow10 place)).toNat : ℚ)) * pow10 place = q := by
  obtain ⟨k, e, hke, -, he⟩ := h.multiple
  have hpos : (0 : ℚ) < 10 ^ place := by positivity
  have hint : ∃ n : Int, q / 10 ^ place = n := by
    refine ⟨k * 2 ^ (e - place).toNat * 5 ^ (-place).toNat, ?_⟩
    rw [div_eq_iff hpos.ne', hke]
    push_cast
    have h2 : (2 : ℚ) ^ e = 2 ^ (e - place).toNat * 2 ^ place := by
      rw [← zpow_natCast, ← zpow_add₀ (by norm_num)]
      congr 1
      omega
    have h5 : (5 : ℚ) ^ (-place).toNat * 5 ^ place = 1 := by
      rw [← zpow_natCast, ← zpow_add₀ (by norm_num)]
      rw [show (((-place).toNat : Nat) : Int) + place = 0 by omega, zpow_zero]
    rw [show (10 : ℚ) = 2 * 5 by norm_num, mul_zpow, h2]
    linear_combination (-(k : ℚ) * 2 ^ (e - place).toNat * 2 ^ place) * h5
  obtain ⟨n, hn⟩ := hint
  have hn0 : 0 ≤ n := by
    have hle : (0 : ℚ) ≤ n := hn ▸ (div_pos hq hpos).le
    exact_mod_cast hle
  rw [pow10_eq_zpow, hn, roundHalfEven_intCast]
  have hcast : ((n.toNat : Nat) : ℚ) = n := by
    exact_mod_cast congrArg (Int.cast (R := ℚ)) (Int.toNat_of_nonneg hn0)
  rw [hcast, ← hn]
  exact div_mul_cancel₀ q hpos.ne'

theorem leadingPlaces_le (fuel : Nat) (q : ℚ) : leadingPlaces fuel q ≤ fuel := by
  induction fuel generalizing q with
  | zero => exact le_rfl
  | succ fuel ih =>
      rw [leadingPlaces]
      split
      · exact Nat.zero_le _
      · exact Nat.succ_le_succ (ih _)

theorem le_decimalPoint (q : ℚ) : -399 ≤ decimalPoint q := by
  simp only [decimalPoint]
  split
  · omega
  · have := leadingPlaces_le 400 q
    omega

/-- The search finds digits: at the latest where the value is a whole number of units. -/
theorem shortestDigits_readsBack {q : ℚ} (hq : 0 < q) (h : IsDyadic q) (fuel n : Nat)
    (hfuel : 1074 + decimalPoint q ≤ fuel + n) (hn : -1100 + fuel ≤ decimalPoint q - n) :
    ReadsBack q (shortestDigits q fuel n).1 (shortestDigits q fuel n).2 := by
  induction fuel generalizing n with
  | zero =>
      refine readsBack_trimZeros hq.ne' (by omega) ?_
      rw [h.roundHalfEven_unit hq (by omega)]
      exact ofRat_of_isDyadic h
  | succ fuel ih =>
      rw [shortestDigits]
      split
      · rename_i hcheck
        exact readsBack_trimZeros hq.ne' (by omega) hcheck
      · exact ih (n + 1) (by omega) (by omega)

theorem ReadsBack.place_le {q : ℚ} {ds : List Nat} {point : Int} (h : ReadsBack q ds point) :
    point - ds.length ≤ 1100 := by
  obtain ⟨d, rest, hds, hd⟩ := h.head
  have hne : ofDigits ds ≠ 0 := by
    have hpos : 0 < d * 10 ^ rest.length := Nat.mul_pos (Nat.pos_of_ne_zero hd) (by positivity)
    have happ := ofDigits_append [d] rest
    rw [List.singleton_append, ← hds, show ofDigits [d] = d by simp [ofDigits]] at happ
    omega
  have hlt := (le_abs_self _).trans_lt (lt_of_ofRat_finite h.value)
  have := adjusted_lt hne (hlt.trans_le range_le_ten_pow)
  omega

/-! ### Numerals as text -/

/-- The text goes on with something other than an ASCII digit, or ends. -/
def NoDigit (s : Text) : Prop := ∀ c, s.head? = some c → ¬ (48 ≤ c ∧ c ≤ 57)

theorem noDigit_nil : NoDigit [] := nofun

theorem noDigit_cons {c : Nat} (s : Text) (h : ¬ (48 ≤ c ∧ c ≤ 57)) : NoDigit (c :: s) := by
  intro c' hc
  obtain rfl := Option.some.inj hc
  exact h

theorem takeDigits_digitText {ds : List Nat} (hds : ∀ d ∈ ds, d < 10) {rest : Text}
    (h : NoDigit rest) : takeDigits (digitText ds ++ rest) = (ds, rest) := by
  induction ds with
  | nil =>
      cases rest with
      | nil => rfl
      | cons c s => exact if_neg (h c rfl)
  | cons d ds ih =>
      have hd := hds d List.mem_cons_self
      have hrest := ih fun d' hd' => hds d' (List.mem_cons_of_mem _ hd')
      change takeDigits ((48 + d) :: (digitText ds ++ rest)) = _
      rw [takeDigits, if_pos (by omega), hrest, Nat.add_sub_cancel_left]

theorem takeDigitRun_digitText {ds : List Nat} (hds : ∀ d ∈ ds, d < 10) {rest : Text}
    (h : NoDigit rest) : Json.takeDigitRun (digitText ds ++ rest) = (digitText ds, rest) := by
  have hall : ∀ c ∈ digitText ds, (48 ≤ c && c ≤ 57) = true := by
    intro c hc
    obtain ⟨d, hd, rfl⟩ := List.mem_map.mp hc
    have := hds d hd
    simp only [Bool.and_eq_true, decide_eq_true_eq]
    omega
  have hrest : rest.takeWhile (fun c => 48 ≤ c && c ≤ 57) = [] ∧
      rest.dropWhile (fun c => 48 ≤ c && c ≤ 57) = rest := by
    cases rest with
    | nil => exact ⟨rfl, rfl⟩
    | cons c s =>
        have hc : (48 ≤ c && c ≤ 57) = false := by simpa using h c rfl
        simp [hc]
  simp only [Json.takeDigitRun]
  rw [List.takeWhile_append_of_pos hall, List.dropWhile_append_of_pos hall, hrest.1, hrest.2,
    List.append_nil]

/-- An unsigned number as it is printed: digits, digits after a point, an exponent. -/
structure Lexeme where
  whole : List Nat
  frac : List Nat := []
  exponent : Option Int := none

namespace Lexeme

/-- The exponent of a printed float has a sign and at least two digits. -/
def exponentDigits (e : Int) : List Nat :=
  if e.natAbs < 10 then 0 :: natDigits e.natAbs else natDigits e.natAbs

def exponentText (e : Int) : Text :=
  101 :: (if e < 0 then 45 else 43) :: digitText (exponentDigits e)

def text (x : Lexeme) : Text :=
  digitText x.whole ++ ((if x.frac = [] then [] else 46 :: digitText x.frac) ++
    (x.exponent.map exponentText).getD [])

/-- Digits before the point, none of them a leading zero but a single one. -/
structure Valid (x : Lexeme) : Prop where
  whole_digits : ∀ d ∈ x.whole, d < 10
  frac_digits : ∀ d ∈ x.frac, d < 10
  head : x.whole = [0] ∨ ∃ d rest, x.whole = d :: rest ∧ d ≠ 0

def numeral (x : Lexeme) : Numeral := ⟨x.whole ++ x.frac, x.frac.length, x.exponent.getD 0⟩

def isFloat (x : Lexeme) : Bool := x.frac ≠ [] || x.exponent.isSome

theorem ofDigits_exponentDigits (e : Int) : ofDigits (exponentDigits e) = e.natAbs := by
  simp only [exponentDigits]
  split
  · exact ofDigits_natDigits _
  · exact ofDigits_natDigits _

theorem exponentDigits_lt (e : Int) : ∀ d ∈ exponentDigits e, d < 10 := by
  intro d hd
  simp only [exponentDigits] at hd
  split at hd
  · obtain rfl | hd := List.mem_cons.mp hd
    · decide
    · exact natDigits_lt hd
  · exact natDigits_lt hd

theorem exponentDigits_ne_nil (e : Int) : exponentDigits e ≠ [] := by
  simp only [exponentDigits]
  split
  · exact List.cons_ne_nil _ _
  · exact natDigits_ne_nil _

theorem exponentPart?_exponentText (e : Int) : exponentPart? (exponentText e) = some e := by
  have hdigits := takeDigits_digitText (exponentDigits_lt e) noDigit_nil
  rw [List.append_nil] at hdigits
  obtain ⟨d, ds, hds⟩ := List.exists_cons_of_ne_nil (exponentDigits_ne_nil e)
  have hvalue := ofDigits_exponentDigits e
  rw [hds] at hdigits hvalue
  simp only [exponentText]
  rw [exponentPart?, if_pos (.inl rfl), hds]
  by_cases he : e < 0
  · simp only [he, if_true, takeSign, hdigits, hvalue]
    congr 1
    omega
  · simp only [he, if_false, takeSign, hdigits, hvalue, Bool.false_eq_true]
    congr 1
    omega

theorem noDigit_exponent (e : Option Int) : NoDigit ((e.map exponentText).getD []) := by
  cases e with
  | none => exact noDigit_nil
  | some e => exact noDigit_cons _ (by decide)

theorem noDigit_tail (x : Lexeme) :
    NoDigit ((if x.frac = [] then [] else 46 :: digitText x.frac) ++
      (x.exponent.map exponentText).getD []) := by
  split
  · exact noDigit_exponent x.exponent
  · exact noDigit_cons _ (by decide)

theorem whole_ne_nil {x : Lexeme} (h : x.Valid) : x.whole ≠ [] := by
  obtain h | ⟨d, rest, h, -⟩ := h.head <;> rw [h] <;> exact List.cons_ne_nil _ _

/-- The scanner of `float` and `Decimal` reads the text as it was printed. -/
theorem numeral?_text {x : Lexeme} (h : x.Valid) : numeral? x.text = some x.numeral := by
  have hwhole := takeDigits_digitText h.whole_digits x.noDigit_tail
  have hexp : exponentPart? ((x.exponent.map exponentText).getD []) =
      some (x.exponent.getD 0) := by
    cases x.exponent with
    | none => rfl
    | some e => exact exponentPart?_exponentText e
  have hne : x.whole ++ x.frac ≠ [] := List.append_ne_nil_of_left_ne_nil (whole_ne_nil h) _
  rw [numeral?, text]
  rw [hwhole]
  dsimp only
  by_cases hfrac : x.frac = []
  · rw [hfrac, List.append_nil] at hne
    have hpoint : pointPart ((x.exponent.map exponentText).getD []) =
        ([], (x.exponent.map exponentText).getD []) := by
      cases x.exponent <;> rfl
    rw [if_pos hfrac, List.nil_append, hpoint]
    simp only [List.append_nil, hne, if_false, hexp, Option.map_some, numeral, hfrac]
  · rw [if_neg hfrac, List.cons_append, pointPart,
      takeDigits_digitText h.frac_digits (noDigit_exponent x.exponent)]
    simp only [hne, if_false, hexp, Option.map_some, numeral]

theorem minusPart_of_head {s : Text} (h : s.head? ≠ some 45) : Json.minusPart s = ([], s) := by
  simp only [Json.minusPart]
  split
  · exact absurd rfl h
  · rfl

theorem wholePart?_of_head {s : Text} (h : s.head? ≠ some 48) :
    Json.wholePart? s =
      if (Json.takeDigitRun s).1 = [] then none else some (Json.takeDigitRun s) := by
  simp only [Json.wholePart?]
  split
  · exact absurd rfl h
  · rfl

theorem head_text {x : Lexeme} (h : x.Valid) : ∃ d, d < 10 ∧ x.text.head? = some (48 + d) := by
  obtain ⟨d, ds, hds⟩ := List.exists_cons_of_ne_nil (whole_ne_nil h)
  refine ⟨d, h.whole_digits d (by rw [hds]; exact List.mem_cons_self), ?_⟩
  simp only [text]
  rw [hds]
  rfl

theorem wholePart?_text {x : Lexeme} (h : x.Valid) :
    Json.wholePart? x.text = some (digitText x.whole,
      (if x.frac = [] then [] else 46 :: digitText x.frac) ++
        (x.exponent.map exponentText).getD []) := by
  obtain hzero | ⟨d, ds, hds, hd⟩ := h.head
  · simp only [text]
    rw [hzero]
    rfl
  · have hrun : Json.takeDigitRun x.text = _ :=
      takeDigitRun_digitText h.whole_digits x.noDigit_tail
    rw [wholePart?_of_head, hrun, if_neg]
    · simp [hds, digitText]
    · simp only [text]
      rw [hds]
      simpa [digitText] using hd

theorem expPart_exponent (e : Option Int) :
    Json.expPart ((e.map exponentText).getD []) = ((e.map exponentText).getD [], []) := by
  cases e with
  | none => rfl
  | some e =>
      have hrun := takeDigitRun_digitText (exponentDigits_lt e) noDigit_nil
      rw [List.append_nil] at hrun
      have hne : digitText (exponentDigits e) ≠ [] :=
        fun h => exponentDigits_ne_nil e (List.map_eq_nil_iff.mp h)
      by_cases he : e < 0
      · simp [exponentText, he, Json.expPart, Json.expSign, hrun, hne]
      · simp [exponentText, he, Json.expPart, Json.expSign, hrun, hne]

theorem fracPart_tail {x : Lexeme} (h : x.Valid) :
    Json.fracPart ((if x.frac = [] then [] else 46 :: digitText x.frac) ++
        (x.exponent.map exponentText).getD []) =
      (if x.frac = [] then [] else 46 :: digitText x.frac,
        (x.exponent.map exponentText).getD []) := by
  by_cases hfrac : x.frac = []
  · rw [if_pos hfrac]
    cases x.exponent <;> rfl
  · have hne : digitText x.frac ≠ [] := fun h => hfrac (List.map_eq_nil_iff.mp h)
    rw [if_neg hfrac, List.cons_append, Json.fracPart,
      takeDigitRun_digitText h.frac_digits (noDigit_exponent x.exponent), if_neg hne]

/-- The scanner of JSON takes the whole text, with or without a minus sign. -/
theorem numberPrefix?_text {x : Lexeme} (h : x.Valid) (negative : Bool) :
    Json.numberPrefix? ((if negative then [45] else []) ++ x.text) =
      some ((if negative then [45] else []) ++ x.text, x.isFloat, []) := by
  have hminus : Json.minusPart ((if negative then [45] else []) ++ x.text) =
      (if negative then [45] else [], x.text) := by
    cases negative with
    | true => rfl
    | false =>
        obtain ⟨d, hd, hhead⟩ := head_text h
        refine minusPart_of_head ?_
        change x.text.head? ≠ some 45
        rw [hhead, ne_eq, Option.some.injEq]
        omega
  have hfloat : ((if x.frac = [] then [] else 46 :: digitText x.frac) ≠ [] ||
      (x.exponent.map exponentText).getD [] ≠ [] : Bool) = x.isFloat := by
    simp only [isFloat]
    congr 1
    · by_cases hfrac : x.frac = [] <;> simp [hfrac]
    · cases x.exponent <;> simp [exponentText]
  simp only [Json.numberPrefix?]
  simp only [hminus, wholePart?_text h, Option.map_some, fracPart_tail h, expPart_exponent,
    hfloat]
  simp only [text, List.append_assoc]

/-! ### Conversions of printed numbers -/

def value (x : Lexeme) : ℚ :=
  ofDigits (x.whole ++ x.frac) * 10 ^ (x.exponent.getD 0 - x.frac.length)

/-- The characters of a printed number. -/
def IsNumberChar (c : Nat) : Prop := (48 ≤ c ∧ c ≤ 57) ∨ c ∈ [43, 45, 46, 101]

theorem digitText_chars {ds : List Nat} (h : ∀ d ∈ ds, d < 10) :
    ∀ c ∈ digitText ds, IsNumberChar c := by
  intro c hc
  obtain ⟨d, hd, rfl⟩ := List.mem_map.mp hc
  have := h d hd
  exact .inl (by omega)

theorem text_chars {x : Lexeme} (h : x.Valid) : ∀ c ∈ x.text, IsNumberChar c := by
  intro c hc
  simp only [text] at hc
  rcases List.mem_append.mp hc with hc | hc
  · exact digitText_chars h.whole_digits c hc
  rcases List.mem_append.mp hc with hc | hc
  · split at hc
    · cases hc
    · obtain rfl | hc := List.mem_cons.mp hc
      · exact .inr (by decide)
      · exact digitText_chars h.frac_digits c hc
  · cases hexp : x.exponent with
    | none =>
        rw [hexp] at hc
        cases hc
    | some e =>
        rw [hexp] at hc
        obtain rfl | hc := List.mem_cons.mp hc
        · exact .inr (by decide)
        obtain rfl | hc := List.mem_cons.mp hc
        · by_cases he : e < 0
          · rw [if_pos he]
            exact .inr (by decide)
          · rw [if_neg he]
            exact .inr (by decide)
        · exact digitText_chars (exponentDigits_lt e) c hc

end Lexeme

instance (c : Nat) : Decidable (Lexeme.IsNumberChar c) := inferInstanceAs (Decidable (_ ∨ _))

/-- Such a character is no space and no underscore, and its digit value is the ASCII one. -/
theorem IsNumberChar_plain : ∀ c < 102, Lexeme.IsNumberChar c →
    (match decimalDigit? c with | some d => 48 + d | none => c) = c ∧ isSpace c = false ∧
      c ≠ 95 := by
  decide +kernel

theorem plain_of_isNumberChar {c : Nat} (h : Lexeme.IsNumberChar c) :
    (match decimalDigit? c with | some d => 48 + d | none => c) = c ∧ isSpace c = false ∧
      c ≠ 95 := by
  refine IsNumberChar_plain c ?_ h
  obtain h | h := h
  · omega
  · simp only [List.mem_cons, List.not_mem_nil, or_false] at h
    omega

section
variable {s : Text} (h : ∀ c ∈ s, Lexeme.IsNumberChar c)
include h

theorem asciiDigits_number : asciiDigits s = s := by
  simp only [asciiDigits]
  conv_rhs => rw [← List.map_id s]
  exact List.map_congr_left fun c hc => (plain_of_isNumberChar (h c hc)).1

omit h in
theorem dropWhile_none {p : Nat → Bool} (hp : ∀ c ∈ s, p c = false) : s.dropWhile p = s := by
  cases s with
  | nil => rfl
  | cons c t => simp [hp c List.mem_cons_self]

theorem strip_number : strip s = s := by
  have hs : ∀ c ∈ s, isSpace c = false := fun c hc => (plain_of_isNumberChar (h c hc)).2.1
  simp only [strip, lstrip]
  rw [dropWhile_none hs, dropWhile_none fun c hc => hs c (List.mem_reverse.mp hc),
    List.reverse_reverse]

theorem stripNumber_number : stripNumber s = s := by
  have hs : ∀ c ∈ s, isNumberSpace c = false := fun c hc => by
    simp [isNumberSpace, (plain_of_isNumberChar (h c hc)).2.1]
  simp only [stripNumber]
  rw [dropWhile_none hs, dropWhile_none fun c hc => hs c (List.mem_reverse.mp hc),
    List.reverse_reverse]

theorem dropUnderscores?_number (before : Option Nat) : dropUnderscores? before s = some s := by
  induction s generalizing before with
  | nil => rfl
  | cons c t ih =>
      have hc := (plain_of_isNumberChar (h c List.mem_cons_self)).2.2
      rw [dropUnderscores?, if_neg hc, ih fun d hd => h d (List.mem_cons_of_mem _ hd)]
      rfl

theorem filter_number : s.filter (· ≠ 95) = s :=
  List.filter_eq_self.mpr fun c hc => by simpa using (plain_of_isNumberChar (h c hc)).2.2

end

/-- A number with its sign. -/
def signedText (negative : Bool) (x : Lexeme) : Text :=
  (if negative then [45] else []) ++ x.text

namespace Lexeme

variable {x : Lexeme} (h : x.Valid) (negative : Bool)
include h

theorem signedText_chars : ∀ c ∈ signedText negative x, IsNumberChar c := by
  intro c hc
  rcases List.mem_append.mp hc with hc | hc
  · cases negative with
    | true =>
        obtain rfl := List.mem_singleton.mp hc
        exact .inr (by decide)
    | false => cases hc
  · exact text_chars h c hc

theorem takeSign_signedText : takeSign (signedText negative x) = (negative, x.text) := by
  cases negative with
  | true => rfl
  | false =>
      obtain ⟨d, hd, hhead⟩ := head_text h
      change takeSign x.text = _
      simp only [takeSign]
      split
      · rename_i hcons
        rw [hcons, List.head?_cons, Option.some.injEq] at hhead
        omega
      · rename_i hcons
        rw [hcons, List.head?_cons, Option.some.injEq] at hhead
        omega
      · rfl

/-- The text begins with a digit, so it is none of the words. -/
theorem asciiLower_head : ∃ d rest, d < 10 ∧ asciiLower x.text = (48 + d) :: rest := by
  obtain ⟨d, hd, hhead⟩ := head_text h
  obtain ⟨rest, hrest⟩ := List.head?_eq_some_iff.mp hhead
  refine ⟨d, asciiLower rest, hd, ?_⟩
  rw [hrest]
  change (if _ then _ else _) :: _ = _
  rw [if_neg (by omega)]
  rfl

theorem asciiLower_not_infinite :
    asciiLower x.text ∉ [Python.text "inf", Python.text "infinity"] := by
  obtain ⟨d, rest, hd, hlower⟩ := asciiLower_head h
  rw [hlower]
  simp [Python.text]
  omega

omit h in
theorem numeral_toFloat : Numeral.toFloat negative x.numeral =
    .ofRat ((if negative then -1 else 1) * x.value) := by
  simp only [Numeral.toFloat]
  rw [ofScientific_eq, pow10_eq_zpow, mul_assoc]
  rfl

/-- `float` of a printed number. -/
theorem floatOfText_signedText :
    floatOfText (signedText negative x) =
      .ok (.ofRat ((if negative then -1 else 1) * x.value)) := by
  have hchars := signedText_chars h negative
  obtain ⟨d, rest, hd, hlower⟩ := asciiLower_head h
  have hword := asciiLower_not_infinite h
  have hnan : asciiLower x.text ≠ Python.text "nan" := by
    rw [hlower]
    simp [Python.text]
    omega
  simp only [floatOfText]
  rw [stripNumber_number hchars, asciiDigits_number hchars, dropUnderscores?_number hchars]
  simp only [Option.bind_some, takeSign_signedText h negative, hword, if_false, hnan,
    numeral?_text h, Option.map_some, numeral_toFloat]

end Lexeme

/-- The decimal that a printed number stands for. -/
def Lexeme.toDecimal (negative : Bool) (x : Lexeme) : Decimal :=
  .finite negative (ofDigits (x.whole ++ x.frac)) (x.exponent.getD 0 - x.frac.length)

/-- `Decimal` of a printed number within the range of floats. -/
theorem Lexeme.ofText?_signedText {x : Lexeme} (h : x.Valid) (negative : Bool)
    (hrange : x.value < 2 ^ (1024 : Int))
    (hplace : -1100 ≤ x.exponent.getD 0 - x.frac.length ∧
      x.exponent.getD 0 - x.frac.length ≤ 1100) :
    Decimal.ofText? (signedText negative x) = some (x.toDecimal negative) := by
  have hchars := signedText_chars h negative
  obtain ⟨d, rest, hd, hlower⟩ := asciiLower_head h
  have hword := Lexeme.asciiLower_not_infinite h
  have hnan : Decimal.isNanText (asciiLower x.text) = false := by
    rw [hlower]
    simp [Decimal.isNanText, startsWith, Python.text]
    omega
  have hsnan : startsWith (asciiLower x.text) (Python.text "s") = false := by
    rw [hlower]
    simp [startsWith, Python.text, List.isPrefixOf]
    omega
  simp only [Decimal.ofText?]
  rw [strip_number hchars, filter_number hchars, asciiDigits_number hchars]
  simp only [takeSign_signedText h negative, hword, if_false, hnan, hsnan, Bool.false_and,
    Bool.false_eq_true, numeral?_text h, Option.bind_some]
  have hrange' : (ofDigits x.numeral.digits : ℚ) *
      10 ^ (x.numeral.exponent - x.numeral.scale : Int) < 10 ^ (400 : Int) :=
    lt_of_lt_of_le hrange range_le_ten_pow
  have hadjusted : (if ofDigits x.numeral.digits = 0 then x.numeral.exponent - x.numeral.scale
      else x.numeral.exponent - x.numeral.scale +
        (natText (ofDigits x.numeral.digits)).length - 1) ≤ (1100 : Int) := by
    split
    · exact hplace.2
    · rename_i hc
      have := adjusted_lt hc hrange'
      omega
  rw [if_pos]
  · rfl
  · refine ⟨hadjusted.trans (by decide), le_trans (by decide) hplace.1⟩

theorem Lexeme.toDecimal_toFloat (x : Lexeme) (negative : Bool) :
    (x.toDecimal negative).toFloat = .ofRat ((if negative then -1 else 1) * x.value) := by
  change Float.ofScientific _ _ _ = _
  rw [ofScientific_eq, pow10_eq_zpow, mul_assoc]
  rfl

/-! ### The text of a float -/

/-- The lexeme that a positive float is printed as. -/
structure Prints (q : ℚ) (x : Lexeme) : Prop where
  valid : x.Valid
  isFloat : x.isFloat = true
  value : Float.ofRat x.value = .finite q
  place : -1100 ≤ x.exponent.getD 0 - x.frac.length ∧ x.exponent.getD 0 - x.frac.length ≤ 1100

/-- The lexeme of some digits with the decimal point after `point` of them. -/
def layout (ds : List Nat) (point : Int) : Lexeme :=
  if -4 ≤ point - 1 ∧ point - 1 < 16 then
    if point ≤ 0 then ⟨[0], List.replicate (-point).toNat 0 ++ ds, none⟩
    else if ds.length ≤ point then
      ⟨ds ++ List.replicate (point.toNat - ds.length) 0, [0], none⟩
    else ⟨ds.take point.toNat, ds.drop point.toNat, none⟩
  else ⟨ds.take 1, ds.drop 1, some (point - 1)⟩

theorem ofDigits_replicate_append (n : Nat) (ds : List Nat) :
    ofDigits (List.replicate n 0 ++ ds) = ofDigits ds := by
  rw [ofDigits_append, ofDigits_replicate_zero, Nat.zero_mul, Nat.zero_add]

theorem ofDigits_append_replicate (ds : List Nat) (n : Nat) :
    ofDigits (ds ++ List.replicate n 0) = ofDigits ds * 10 ^ n := by
  rw [ofDigits_append, ofDigits_replicate_zero, List.length_replicate, Nat.add_zero]

section
variable {q : ℚ} {ds : List Nat} {point : Int} (h : ReadsBack q ds point)
include h

theorem ReadsBack.ne_nil : ds ≠ [] := by
  obtain ⟨d, rest, hds, -⟩ := h.head
  rw [hds]
  exact List.cons_ne_nil _ _

theorem layout_valid : (layout ds point).Valid := by
  obtain ⟨d, rest, rfl, hd⟩ := h.head
  have hdigits := h.digits
  have hzeros : ∀ n, ∀ e ∈ List.replicate n 0, e < 10 := by
    intro n e he
    rw [List.eq_of_mem_replicate he]
    decide
  simp only [layout]
  split
  · split
    · refine ⟨by simp, fun e he => ?_, .inl rfl⟩
      exact (List.mem_append.mp he).elim (hzeros _ e) (hdigits e)
    · split
      · refine ⟨fun e he => ?_, by simp, .inr ⟨d, _, rfl, hd⟩⟩
        exact (List.mem_append.mp he).elim (hdigits e) (hzeros _ e)
      · refine ⟨fun e he => hdigits e (List.mem_of_mem_take he),
          fun e he => hdigits e (List.mem_of_mem_drop he), .inr ?_⟩
        obtain ⟨n, hn⟩ : ∃ n, point.toNat = n + 1 := ⟨point.toNat - 1, by omega⟩
        exact ⟨d, rest.take n, by rw [hn]; rfl, hd⟩
  · exact ⟨fun e he => hdigits e (List.mem_of_mem_take he),
      fun e he => hdigits e (List.mem_of_mem_drop he), .inr ⟨d, [], rfl, hd⟩⟩

theorem layout_isFloat : (layout ds point).isFloat = true := by
  have hne := h.ne_nil
  simp only [layout]
  split
  · split
    · simp [Lexeme.isFloat, hne]
    · split
      · rfl
      · simp [Lexeme.isFloat]
        omega
  · simp [Lexeme.isFloat]

theorem layout_value : (layout ds point).value = ofDigits ds * 10 ^ (point - ds.length) := by
  have hlen := List.length_pos_of_ne_nil h.ne_nil
  simp only [layout, Lexeme.value]
  split
  · split
    · dsimp only
      rw [← List.replicate_one, ofDigits_replicate_append, ofDigits_replicate_append]
      congr 2
      simp only [Option.getD_none, List.length_append, List.length_replicate]
      omega
    · split
      · dsimp only
        rw [List.append_assoc, ← List.replicate_one, List.replicate_append_replicate,
          ofDigits_append_replicate]
        push_cast
        rw [mul_assoc, ← zpow_natCast, ← zpow_add₀ (by norm_num)]
        congr 2
        simp only [Option.getD_none, List.length_singleton]
        omega
      · dsimp only
        rw [List.take_append_drop]
        congr 2
        simp only [Option.getD_none, List.length_drop]
        omega
  · dsimp only
    rw [List.take_append_drop]
    congr 2
    simp only [Option.getD_some, List.length_drop]
    omega

theorem layout_place : -1100 ≤ (layout ds point).exponent.getD 0 - (layout ds point).frac.length ∧
    (layout ds point).exponent.getD 0 - (layout ds point).frac.length ≤ (1100 : Int) := by
  have hlen := List.length_pos_of_ne_nil h.ne_nil
  have hlow := h.place
  have hhigh := h.place_le
  simp only [layout]
  split
  · split
    · simp only [Option.getD_none, List.length_append, List.length_replicate]
      omega
    · split
      · simp
      · simp only [Option.getD_none, List.length_drop]
        omega
  · simp only [Option.getD_some, List.length_drop]
    omega

theorem layout_prints : Prints q (layout ds point) where
  valid := layout_valid h
  isFloat := layout_isFloat h
  value := by
    rw [layout_value h]
    exact h.value
  place := layout_place h

end

theorem exponentText_eq (e : Int) :
    Lexeme.exponentText e = (if e < 0 then text "e-" else text "e+") ++
      (if e.natAbs < 10 then 48 :: natText e.natAbs else natText e.natAbs) := by
  simp only [Lexeme.exponentText, Lexeme.exponentDigits]
  by_cases he : e < 0 <;> by_cases h10 : e.natAbs < 10 <;> simp [he, h10] <;> rfl

/-- A positive float is printed as the lexeme of its shortest digits. -/
theorem positiveText_eq {q : ℚ} (hq : 0 < q) (h : IsDyadic q) :
    ∃ x : Lexeme, positiveText q = x.text ∧ Prints q x := by
  have hpoint := le_decimalPoint q
  have hread := shortestDigits_readsBack hq h (1074 + decimalPoint q).toNat 1 (by omega) (by omega)
  rw [positiveText]
  generalize shortestDigits q (1074 + decimalPoint q).toNat 1 = found at hread ⊢
  obtain ⟨ds, point⟩ := found
  refine ⟨layout ds point, ?_, layout_prints hread⟩
  have hne : ds ≠ [] := hread.ne_nil
  rw [layout]
  dsimp only
  split
  · split
    · simp [Lexeme.text, hne]
      rfl
    · split
      · simp [Lexeme.text]
        rfl
      · rename_i hlong
        have hdrop : ds.drop point.toNat ≠ [] := by
          rw [ne_eq, List.drop_eq_nil_iff]
          omega
        simp [Lexeme.text, hdrop]
  · have hdrop : (if ds.drop 1 = [] then [] else 46 :: digitText (ds.drop 1)) =
        if ds.length ≤ 1 then [] else 46 :: digitText (ds.drop 1) := by
      simp only [List.drop_eq_nil_iff]
    simp only [Lexeme.text, Option.map_some, Option.getD_some, exponentText_eq, hdrop,
      List.append_assoc]

/-- The sign and the lexeme that a finite float is printed as. -/
structure PrintsSigned (q : ℚ) (negative : Bool) (x : Lexeme) : Prop where
  valid : x.Valid
  isFloat : x.isFloat = true
  value : Float.ofRat ((if negative then -1 else 1) * x.value) = .finite q
  place : -1100 ≤ x.exponent.getD 0 - x.frac.length ∧ x.exponent.getD 0 - x.frac.length ≤ 1100

theorem Float.text_eq {q : ℚ} (h : IsDyadic q) :
    ∃ negative x, Float.text (.finite q) = signedText negative x ∧ PrintsSigned q negative x := by
  rcases lt_trichotomy q 0 with hq | rfl | hq
  · obtain ⟨x, hx, hprints⟩ := positiveText_eq (neg_pos.mpr hq) h.neg
    refine ⟨true, x, ?_, hprints.valid, hprints.isFloat, ?_, hprints.place⟩
    · rw [Float.text, if_neg hq.ne, if_pos hq, hx]
      rfl
    · rw [if_pos rfl, neg_one_mul, ofRat_neg, hprints.value, Float.neg, neg_neg]
  · refine ⟨false, ⟨[0], [0], none⟩, rfl, ⟨by simp, by simp, .inl rfl⟩, rfl, ?_, by simp⟩
    simp [Lexeme.value, ofDigits, Float.ofRat]
  · obtain ⟨x, hx, hprints⟩ := positiveText_eq hq h
    refine ⟨false, x, ?_, hprints.valid, hprints.isFloat, ?_, hprints.place⟩
    · rw [Float.text, if_neg hq.ne', if_neg hq.not_gt, hx]
      rfl
    · simpa using hprints.value

/-- `float(str(x))` is `x`. -/
theorem floatOfText_text {q : ℚ} (h : IsDyadic q) :
    floatOfText (Float.text (.finite q)) = .ok (.finite q) := by
  obtain ⟨negative, x, hx, hprints⟩ := Float.text_eq h
  rw [hx, Lexeme.floatOfText_signedText hprints.valid, hprints.value]

/-- `Decimal(str(x))` is a finite decimal whose `float` is `x`. -/
theorem Decimal.ofText?_text {q : ℚ} (h : IsDyadic q) :
    ∃ d, Decimal.ofText? (Float.text (.finite q)) = some d ∧ d.isFinite = true ∧
      d.toFloat = .finite q := by
  obtain ⟨negative, x, hx, hprints⟩ := Float.text_eq h
  have hrange : x.value < 2 ^ (1024 : Int) := by
    have habs := lt_of_ofRat_finite hprints.value
    have hle : x.value ≤ |(if negative then -1 else 1 : ℚ) * x.value| := by
      cases negative <;> simp [le_abs_self]
    exact hle.trans_lt habs
  refine ⟨x.toDecimal negative, ?_, rfl, ?_⟩
  · rw [hx, Lexeme.ofText?_signedText hprints.valid negative hrange hprints.place]
  · rw [Lexeme.toDecimal_toFloat, hprints.value]

/-! ### The text of an integer -/

theorem decimalDigit?_ascii : ∀ d < 10, decimalDigit? (48 + d) = some d := by
  decide +kernel

theorem intDigits?_digitText {ds : List Nat} (hds : ∀ d ∈ ds, d < 10) (after : Bool)
    (h : after = true ∨ ds ≠ []) : intDigits? after (digitText ds) = some ds := by
  induction ds generalizing after with
  | nil => exact if_pos (h.resolve_right fun hne => hne rfl)
  | cons d ds ih =>
      have hd := hds d List.mem_cons_self
      change intDigits? after ((48 + d) :: digitText ds) = _
      rw [intDigits?, if_neg (by omega), decimalDigit?_ascii d hd, Option.bind_some,
        ih (fun e he => hds e (List.mem_cons_of_mem _ he)) true (.inl rfl)]
      rfl

/-- An integer as a lexeme. -/
def intLexeme (n : Int) : Lexeme := ⟨natDigits n.natAbs, [], none⟩

theorem intLexeme_valid (n : Int) : (intLexeme n).Valid := by
  refine ⟨fun d hd => natDigits_lt hd, by simp [intLexeme], ?_⟩
  by_cases hn : n.natAbs = 0
  · exact .inl (by simp [intLexeme, hn, natDigits])
  · refine .inr ?_
    obtain ⟨d, rest, hds⟩ := List.exists_cons_of_ne_nil (natDigits_ne_nil n.natAbs)
    refine ⟨d, rest, hds, ?_⟩
    have hhead := natDigits_head hn
    simp only [hds, List.head_cons] at hhead
    exact hhead

theorem intText_eq (n : Int) : intText n = signedText (decide (n < 0)) (intLexeme n) := by
  by_cases hn : n < 0 <;> simp [intText, signedText, intLexeme, Lexeme.text, natText, hn]

/-- `Decimal(str(n))` of an integer within the range of floats is finite. -/
theorem Decimal.ofText?_intText {n : Int} (h : |(n : ℚ)| < 2 ^ (1024 : Int)) :
    ∃ d, Decimal.ofText? (intText n) = some d ∧ d.isFinite = true := by
  have hvalue : (intLexeme n).value = |(n : ℚ)| := by
    simp [intLexeme, Lexeme.value, ofDigits_natDigits, Nat.cast_natAbs]
  refine ⟨(intLexeme n).toDecimal (decide (n < 0)), ?_, rfl⟩
  rw [intText_eq, Lexeme.ofText?_signedText (intLexeme_valid n) _ (hvalue ▸ h)]
  simp [intLexeme]

/-- `int(str(n))` is `n`, up to the limit of digits. -/
theorem intOfText_intText {n : Int} (h : (natDigits n.natAbs).length ≤ maxIntDigits) :
    intOfText (intText n) = .ok n := by
  have hvalid := intLexeme_valid n
  have hchars := Lexeme.signedText_chars hvalid (decide (n < 0))
  have hdigits : intDigits? false (intLexeme n).text = some (natDigits n.natAbs) := by
    have htext : (intLexeme n).text = digitText (natDigits n.natAbs) := by
      simp [intLexeme, Lexeme.text]
    rw [htext]
    exact intDigits?_digitText (fun d hd => natDigits_lt hd) false
      (.inr (natDigits_ne_nil _))
  have hread : intOfText? (intText n) = some n := by
    simp only [intOfText?]
    rw [intText_eq, stripNumber_number hchars, Lexeme.takeSign_signedText hvalid]
    simp only [hdigits, Option.bind_some, h, if_true, ofDigits_natDigits]
    by_cases hn : n < 0
    · simp only [hn, decide_true, if_true]
      congr 1
      omega
    · simp only [hn, decide_false, Bool.false_eq_true, if_false]
      congr 1
      omega
  simp only [intOfText]
  rw [hread]

theorem decimalDigit?_lt {c d : Nat} (h : decimalDigit? c = some d) : d < 10 := by
  obtain ⟨z, hz, rfl⟩ := Option.map_eq_some_iff.mp h
  have hrange := List.find?_some hz
  rw [decide_eq_true_eq] at hrange
  omega

theorem intDigits?_lt {after : Bool} {s : Text} {ds : List Nat} (h : intDigits? after s = some ds) :
    ∀ d ∈ ds, d < 10 := by
  induction s generalizing after ds with
  | nil =>
      rw [intDigits?, Option.ite_none_right_eq_some] at h
      cases h.2
      exact fun _ hd => (nomatch hd)
  | cons c s ih =>
      rw [intDigits?] at h
      split at h
      · rw [Option.ite_none_right_eq_some] at h
        exact ih h.2
      · obtain ⟨d, hd, hrest⟩ := Option.bind_eq_some_iff.mp h
        obtain ⟨more, hmore, rfl⟩ := Option.map_eq_some_iff.mp hrest
        exact List.forall_mem_cons.mpr ⟨decimalDigit?_lt hd, ih hmore⟩

/-- What `int` has read has no more digits than it takes. -/
theorem length_natDigits_of_intOfText {s : Text} {n : Int} (h : intOfText s = .ok n) :
    (natDigits n.natAbs).length ≤ maxIntDigits := by
  have hread : intOfText? s = some n := by
    rw [intOfText] at h
    split at h
    · cases h
      assumption
    · cases h
  obtain ⟨ds, hds, hlimit⟩ := Option.bind_eq_some_iff.mp hread
  rw [Option.ite_none_right_eq_some] at hlimit
  have habs : n.natAbs = ofDigits ds := by
    have hsign (negative : Bool) (m : Nat) :
        (if negative then -(m : Int) else m).natAbs = m := by
      cases negative with
      | true => exact (Int.natAbs_neg _).trans (Int.natAbs_natCast m)
      | false => exact Int.natAbs_natCast m
    rw [← Option.some.inj hlimit.2]
    exact hsign _ _
  have hlt : ofDigits ds < 10 ^ maxIntDigits :=
    (ofDigits_lt (intDigits?_lt hds)).trans_le (Nat.pow_le_pow_right (by decide) hlimit.1)
  rw [habs]
  exact length_natDigits_le (by decide) hlt

/-! ### Number tokens of JSON -/

namespace Json

/-- A printed number is none of the words. -/
theorem signedText_not_word {x : Lexeme} (h : x.Valid) (negative : Bool) {word : Text}
    (hword : ∃ c rest, word = c :: rest ∧ 57 < c) :
    signedText negative x ≠ word ∧ signedText negative x ≠ 45 :: word := by
  obtain ⟨c, rest, rfl, hc⟩ := hword
  obtain ⟨d, hd, hhead⟩ := Lexeme.head_text h
  obtain ⟨tail, htail⟩ := List.head?_eq_some_iff.mp hhead
  simp only [signedText]
  rw [htail]
  cases negative
  · simp
    omega
  · simp
    omega

theorem resolve_signedText {x : Lexeme} (h : x.Valid) (negative : Bool) :
    resolve (signedText negative x) = numberValue x.isFloat (signedText negative x) := by
  have hnot (word : Text) (hw : ∃ c rest, word = c :: rest ∧ 57 < c) :=
    signedText_not_word h negative hw
  simp only [resolve]
  rw [if_neg (hnot (text "null") ⟨110, _, rfl, by decide⟩).1,
    if_neg (hnot (text "true") ⟨116, _, rfl, by decide⟩).1,
    if_neg (hnot (text "false") ⟨102, _, rfl, by decide⟩).1,
    if_neg (hnot (text "NaN") ⟨78, _, rfl, by decide⟩).1,
    if_neg (hnot (text "Infinity") ⟨73, _, rfl, by decide⟩).1]
  have hminus : signedText negative x ≠ text "-Infinity" :=
    (hnot (text "Infinity") ⟨73, _, rfl, by decide⟩).2
  rw [if_neg hminus]
  have hlexeme : numberPrefix? (signedText negative x) =
      some (signedText negative x, x.isFloat, []) := Lexeme.numberPrefix?_text h negative
  rw [hlexeme]
  dsimp only
  cases numberValue x.isFloat (signedText negative x) <;> rfl

theorem resolve_int {n : Int} (h : (natDigits n.natAbs).length ≤ maxIntDigits) :
    resolve (intText n) = .ok (int n) := by
  rw [intText_eq, resolve_signedText (intLexeme_valid n), ← intText_eq]
  change int <$> intOfText (intText n) = _
  rw [intOfText_intText h]
  rfl

theorem resolve_float {q : ℚ} (h : IsDyadic q) :
    resolve (Float.text (.finite q)) = .ok (float (.finite q)) := by
  have hread := floatOfText_text h
  obtain ⟨negative, x, hx, hprints⟩ := Float.text_eq h
  rw [hx] at hread ⊢
  rw [resolve_signedText hprints.valid, hprints.isFloat]
  change float <$> floatOfText (signedText negative x) = _
  rw [hread]
  rfl

end Json

end Python
