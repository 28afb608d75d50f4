import NexusBackend.Library.Statistics

/-!
Comparison and arithmetic of floats, each result rounded once. A zero has no sign here, and a
division by zero is left to the caller, who must rule it out.
-/
namespace Python
namespace Float

/-- `x <= y`. -/
def le (x y : Float) : Bool := x.lt y || (x = y && x ≠ .nan)

/-- `x - y`. -/
def sub (x y : Float) : Float := x.add y.neg

/-- `x < 0`, also of an infinite value. -/
def isNegative : Float → Bool
  | .finite q => q < 0
  | .inf negative => negative
  | .nan => false

/-- `x * y`. -/
def mul : Float → Float → Float
  | .finite p, .finite q => ofRat (p * q)
  | .nan, _ => .nan
  | _, .nan => .nan
  | x, y => if x = .finite 0 ∨ y = .finite 0 then .nan else .inf (x.isNegative != y.isNegative)

/-- `x / y` for a divisor other than zero. -/
def div : Float → Float → Float
  | .finite p, .finite q => ofRat (p / q)
  | .finite _, .inf _ => .finite 0
  | .inf negative, .finite q => .inf (negative != decide (q < 0))
  | _, _ => .nan

/-- `round(x, places)`: halves go to the even digit, and the decimal is rounded to binary64. -/
def roundTo (places : Nat) : Float → Float
  | .finite q => ofRat (roundHalfEven (q * 10 ^ places) / 10 ^ places)
  | x => x

/-- What is rounded is a float again. -/
theorem isDyadic_roundTo {places : Nat} {x : Float} {q : ℚ}
    (h : x.roundTo places = .finite q) : IsDyadic q := by
  cases x with
  | finite p => exact isDyadic_of_ofRat h
  | inf negative => cases h
  | nan => cases h

theorem le_finite (p q : ℚ) : (Float.finite p).le (.finite q) = decide (p ≤ q) := by
  simp only [le, lt, ne_eq, reduceCtorEq, not_false_eq_true, decide_true, Bool.and_true,
    Float.finite.injEq, ← Bool.decide_or, le_iff_lt_or_eq]

/-- A value of binary64 is an integer or small. -/
theorem isDyadic_integer_or_small {q : ℚ} (hq : IsDyadic q) :
    (∃ n : Int, q = n) ∨ |q| ≤ 2 ^ (53 : Int) := by
  obtain ⟨k, e, rfl, hk, -⟩ := hq.multiple
  rcases le_or_gt 0 e with he | he
  · obtain ⟨n, rfl⟩ := Int.eq_ofNat_of_zero_le he
    exact .inl ⟨k * 2 ^ n, by push_cast; rw [zpow_natCast]⟩
  · right
    have hcast : |(k : ℚ)| ≤ 2 ^ (53 : Int) := by exact_mod_cast hk
    have hsmall : (2 : ℚ) ^ e ≤ 1 := zpow_le_one_of_nonpos₀ (by norm_num) he.le
    rw [abs_mul, abs_of_pos (show (0 : ℚ) < 2 ^ e by positivity)]
    calc |(k : ℚ)| * 2 ^ e ≤ |(k : ℚ)| * 1 := by gcongr
      _ ≤ 2 ^ (53 : Int) := by rwa [mul_one]

/-- The digits that are kept are within binary64. -/
theorem roundTo_bound {q : ℚ} (hq : IsDyadic q) (hpos : 0 < q) (places : Nat) :
    ∃ t, IsDyadic t ∧ (roundHalfEven (q * 10 ^ places) : ℚ) / 10 ^ places ≤ t := by
  have hten : (0 : ℚ) < 10 ^ places := by positivity
  rcases isDyadic_integer_or_small hq with ⟨n, rfl⟩ | hsmall
  · refine ⟨n, hq, le_of_eq ?_⟩
    rw [show (n : ℚ) * 10 ^ places = ((n * 10 ^ places : Int) : ℚ) by push_cast; rfl,
      roundHalfEven_intCast]
    push_cast
    field_simp
  · refine ⟨2 ^ (53 : Int), isDyadic_zpow (by norm_num) (by norm_num), ?_⟩
    rw [abs_of_pos hpos] at hsmall
    have hround : roundHalfEven (q * 10 ^ places) ≤ 2 ^ 53 * 10 ^ places := by
      apply roundHalfEven_le_int
      push_cast
      gcongr
      exact_mod_cast hsmall
    rw [div_le_iff₀ hten]
    exact_mod_cast hround

/-- Rounding a price to four digits: it stays finite, and it vanishes up to half a digit. -/
theorem roundTo_pos {q : ℚ} (hq : IsDyadic q) (hpos : 0 < q) :
    ∃ r, roundTo 4 (.finite q) = .finite r ∧ (0 < r ↔ 1 / 20000 < q) := by
  have hunit : 0 < roundHalfEven (q * 10 ^ 4) ↔ 1 / 20000 < q := by
    rw [roundHalfEven_pos_iff]
    constructor <;> intro h <;> linarith
  have hnonneg : 0 ≤ roundHalfEven (q * 10 ^ 4) :=
    roundHalfEven_mono_int (by push_cast; positivity)
  rw [← hunit, roundTo]
  obtain hzero | hone := hnonneg.eq_or_lt
  · refine ⟨0, ?_, by rw [← hzero]; simp⟩
    rw [← hzero]
    exact if_pos (by simp)
  · have hcast : (1 : ℚ) ≤ roundHalfEven (q * 10 ^ 4) := by exact_mod_cast hone
    have hlow : (2 : ℚ) ^ (-14 : Int) ≤ roundHalfEven (q * 10 ^ 4) / 10 ^ 4 := by
      rw [le_div_iff₀ (by positivity)]
      refine le_trans ?_ hcast
      norm_num
    obtain ⟨t, ht, hle⟩ := roundTo_bound hq hpos 4
    obtain ⟨r, hr, -, -⟩ := ofRat_le ht ((by positivity : (0 : ℚ) < 2 ^ (-14 : Int)).trans_le hlow)
      hle
    refine ⟨r, hr, fun _ => hone, fun _ => ?_⟩
    obtain hinf | ⟨r', hr', hge⟩ := le_ofRat (isDyadic_zpow (by norm_num) (by norm_num))
      (by positivity) hlow
    · rw [hr] at hinf
      cases hinf
    · cases hr.symm.trans hr'
      exact (by positivity : (0 : ℚ) < 2 ^ (-14 : Int)).trans_le hge

/-- A product that is a number is one of binary64. -/
theorem isDyadic_mul {x y : Float} {q : ℚ} (h : x.mul y = .finite q) : IsDyadic q := by
  cases x with
  | finite p =>
      cases y with
      | finite r => exact isDyadic_of_ofRat h
      | inf negative =>
          simp only [mul] at h
          split at h <;> cases h
      | nan => cases h
  | inf negative =>
      cases y with
      | finite r =>
          simp only [mul] at h
          split at h <;> cases h
      | inf negative' =>
          simp only [mul] at h
          split at h <;> cases h
      | nan => cases h
  | nan => cases h

/-- What is at least one stays so when it is rounded. -/
theorem roundTo_ge_one {q : ℚ} (hq : IsDyadic q) (hone : 1 ≤ q) (places : Nat) :
    ∃ r, roundTo places (.finite q) = .finite r ∧ 1 ≤ r := by
  have hten : (0 : ℚ) < 10 ^ places := by positivity
  have hlow : (1 : ℚ) ≤ roundHalfEven (q * 10 ^ places) / 10 ^ places := by
    rw [le_div_iff₀ hten, one_mul]
    have hround : (10 ^ places : Int) ≤ roundHalfEven (q * 10 ^ places) := by
      apply roundHalfEven_mono_int
      push_cast
      exact le_mul_of_one_le_left hten.le hone
    exact_mod_cast hround
  obtain ⟨t, ht, hle⟩ := roundTo_bound hq (zero_lt_one.trans_le hone) places
  obtain ⟨r, hr, -, -⟩ := ofRat_le ht (zero_lt_one.trans_le hlow) hle
  obtain hinf | ⟨r', hr', hge⟩ := le_ofRat (isDyadic_zpow (e := 0) (by norm_num) (by norm_num))
    (by norm_num) (by simpa using hlow)
  · rw [hr] at hinf
    cases hinf
  · cases hr.symm.trans hr'
    exact ⟨r, hr, by simpa using hge⟩

end Float
end Python
