import Mathlib.Algebra.Order.Field.Power
import Mathlib.Data.Nat.Log
import Mathlib.Data.Rat.Floor
import Mathlib.Tactic.FieldSimp
import Mathlib.Tactic.Linarith
import Mathlib.Tactic.Positivity
import Mathlib.Tactic.Ring

/-!
Rounding to the nearest integer and to binary64, ties to even.

A finite `float` is the rational it denotes; signed zeros are not told apart. Rounding
lands on an integer multiple of a power of two, and leaves such a multiple as it is where
it has at most 53 bits. Arithmetic on floats is not covered.
-/
namespace Python

/-! ### Rounding to an integer -/

/-- `round` of a rational to an integer, ties to even. -/
def roundHalfEven (q : ℚ) : Int :=
  let r := q - ⌊q⌋
  if r < 1 / 2 then ⌊q⌋
  else if 1 / 2 < r then ⌊q⌋ + 1
  else if ⌊q⌋ % 2 = 0 then ⌊q⌋ else ⌊q⌋ + 1

/-- An integer is the rounding of a rational: nearer than one half, or even at one half. -/
def IsRounding (q : ℚ) (n : Int) : Prop :=
  |q - n| < 1 / 2 ∨ |q - n| = 1 / 2 ∧ n % 2 = 0

theorem roundHalfEven_isRounding (q : ℚ) : IsRounding q (roundHalfEven q) := by
  have h0 := Int.floor_le q
  have h1 := Int.lt_floor_add_one q
  unfold roundHalfEven IsRounding
  dsimp only
  split_ifs with hlt hgt heven
  · left
    rw [abs_of_nonneg (by linarith)]
    exact hlt
  · left
    push_cast
    rw [abs_of_nonpos (by linarith)]
    linarith
  · right
    rw [abs_of_nonneg (by linarith)]
    exact ⟨by linarith, heven⟩
  · right
    push_cast
    rw [abs_of_nonpos (by linarith)]
    exact ⟨by linarith, by omega⟩

theorem isRounding_unique {q : ℚ} {m n : Int} (hm : IsRounding q m) (hn : IsRounding q n) :
    m = n := by
  have hle : ∀ k : Int, IsRounding q k → |q - k| ≤ 1 / 2 :=
    fun k hk => hk.elim le_of_lt fun h => h.1.le
  have hdist : |(m : ℚ) - n| ≤ 1 := by
    have htri := abs_sub_le (m : ℚ) q n
    rw [abs_sub_comm (m : ℚ) q] at htri
    linarith [hle m hm, hle n hn]
  have hint : |m - n| ≤ 1 := by exact_mod_cast hdist
  by_contra hne
  have hone : |m - n| = 1 := by
    have hpos := abs_pos.mpr (sub_ne_zero.mpr hne)
    omega
  have hfar : |(m : ℚ) - n| = 1 := by exact_mod_cast hone
  have htri := abs_sub_le (m : ℚ) q n
  rw [abs_sub_comm (m : ℚ) q, hfar] at htri
  obtain hm | ⟨hm, hem⟩ := hm
  · linarith [hle n hn]
  · obtain hn | ⟨hn, hen⟩ := hn
    · linarith
    · rcases abs_eq (by decide : (0 : Int) ≤ 1) |>.mp hone with h | h <;> omega

theorem roundHalfEven_eq {q : ℚ} {n : Int} (h : IsRounding q n) : roundHalfEven q = n :=
  isRounding_unique (roundHalfEven_isRounding q) h

@[simp] theorem roundHalfEven_intCast (n : Int) : roundHalfEven (n : ℚ) = n :=
  roundHalfEven_eq (.inl (by simp))

theorem roundHalfEven_neg (q : ℚ) : roundHalfEven (-q) = -roundHalfEven q := by
  refine roundHalfEven_eq ?_
  have habs : |-q - ((-roundHalfEven q : Int) : ℚ)| = |q - roundHalfEven q| := by
    rw [← abs_neg]
    push_cast
    ring_nf
  simp only [IsRounding]
  rw [habs]
  refine (roundHalfEven_isRounding q).imp_right fun h => ⟨h.1, ?_⟩
  omega

theorem roundHalfEven_eq_zero {q : ℚ} (h : |q| < 1 / 2) : roundHalfEven q = 0 :=
  roundHalfEven_eq (.inl (by simpa using h))

theorem roundHalfEven_mono_int {q : ℚ} {n : Int} (h : (n : ℚ) ≤ q) : n ≤ roundHalfEven q := by
  have hle : |q - roundHalfEven q| ≤ 1 / 2 :=
    (roundHalfEven_isRounding q).elim le_of_lt fun h => h.1.le
  by_contra hlt
  have hstep : (roundHalfEven q : ℚ) + 1 ≤ n := by exact_mod_cast not_le.mp hlt
  rw [abs_of_nonneg (by linarith)] at hle
  linarith

theorem roundHalfEven_le_int {q : ℚ} {n : Int} (h : q ≤ n) : roundHalfEven q ≤ n := by
  have hneg := roundHalfEven_mono_int (q := -q) (n := -n) (by push_cast; linarith)
  rw [roundHalfEven_neg] at hneg
  omega

theorem roundHalfEven_mono {p q : ℚ} (h : p ≤ q) : roundHalfEven p ≤ roundHalfEven q := by
  have hle (r : ℚ) : |r - roundHalfEven r| ≤ 1 / 2 :=
    (roundHalfEven_isRounding r).elim le_of_lt fun h => h.1.le
  by_contra hlt
  have hstep : (roundHalfEven q : ℚ) + 1 ≤ roundHalfEven p := by exact_mod_cast not_le.mp hlt
  have hp := (abs_le.mp (hle p)).1
  have hq := (abs_le.mp (hle q)).2
  have heq : p = q := by linarith
  exact hlt (heq ▸ le_rfl)

theorem roundHalfEven_pos_iff {q : ℚ} : 0 < roundHalfEven q ↔ 1 / 2 < q := by
  constructor
  · intro h
    by_contra hle
    have hzero := roundHalfEven_mono (not_lt.mp hle)
    have hhalf : roundHalfEven (1 / 2) = 0 := roundHalfEven_eq (.inr (by norm_num))
    omega
  · intro h
    have hround := roundHalfEven_isRounding q
    by_contra hle
    have hcast : (roundHalfEven q : ℚ) ≤ 0 := by exact_mod_cast not_lt.mp hle
    have habs := le_abs_self (q - roundHalfEven q)
    rcases hround with hlt | ⟨heq, -⟩ <;> linarith

theorem abs_roundHalfEven_le {q : ℚ} {n : Int} (h : |q| ≤ n) : |roundHalfEven q| ≤ n := by
  rw [abs_le] at h ⊢
  exact ⟨roundHalfEven_mono_int (by push_cast; exact h.1), roundHalfEven_le_int h.2⟩

theorem le_abs_roundHalfEven {q : ℚ} {n : Int} (h : (n : ℚ) ≤ |q|) : n ≤ |roundHalfEven q| := by
  rcases le_abs.mp h with h | h
  · exact (roundHalfEven_mono_int h).trans (le_abs_self _)
  · have hneg := roundHalfEven_mono_int h
    rw [roundHalfEven_neg] at hneg
    exact hneg.trans (neg_le_abs _)

/-! ### Powers of two and ten -/

def pow2 (e : Int) : ℚ :=
  if 0 ≤ e then ((2 ^ e.toNat : Nat) : ℚ) else 1 / ((2 ^ (-e).toNat : Nat) : ℚ)

def pow10 (e : Int) : ℚ :=
  if 0 ≤ e then ((10 ^ e.toNat : Nat) : ℚ) else 1 / ((10 ^ (-e).toNat : Nat) : ℚ)

/-- A power given by its natural part is the power itself, for any base. -/
theorem signed_pow_eq_zpow (b : Nat) (e : Int) :
    (if 0 ≤ e then ((b ^ e.toNat : Nat) : ℚ) else 1 / ((b ^ (-e).toNat : Nat) : ℚ)) =
      (b : ℚ) ^ e := by
  split
  · rename_i h
    obtain ⟨n, rfl⟩ := Int.eq_ofNat_of_zero_le h
    simp
  · rename_i h
    obtain ⟨n, hn⟩ := Int.eq_ofNat_of_zero_le (show 0 ≤ -e by omega)
    obtain rfl : e = -(n : Int) := by omega
    simp

theorem pow2_eq_zpow (e : Int) : pow2 e = (2 : ℚ) ^ e := by
  rw [pow2, signed_pow_eq_zpow, Nat.cast_ofNat]

theorem pow10_eq_zpow (e : Int) : pow10 e = (10 : ℚ) ^ e := by
  rw [pow10, signed_pow_eq_zpow, Nat.cast_ofNat]

/-- The exponent of the binade of a positive rational. -/
def binaryExponent (q : ℚ) : Int :=
  let e : Int := (Nat.log2 q.num.natAbs : Int) - Nat.log2 q.den
  if pow2 e ≤ q then e else e - 1

theorem log2_bounds {n : Nat} (h : n ≠ 0) :
    (2 : ℚ) ^ (Nat.log2 n : Int) ≤ n ∧ (n : ℚ) < 2 ^ ((Nat.log2 n : Int) + 1) := by
  constructor
  · exact_mod_cast Nat.log2_self_le h
  · exact_mod_cast Nat.lt_log2_self

theorem binaryExponent_bounds {q : ℚ} (h : 0 < q) :
    (2 : ℚ) ^ binaryExponent q ≤ q ∧ q < 2 ^ (binaryExponent q + 1) := by
  have hnum : q.num.natAbs ≠ 0 := by simpa using h.ne'
  obtain ⟨hn1, hn2⟩ := log2_bounds hnum
  obtain ⟨hd1, hd2⟩ := log2_bounds q.den_ne_zero
  have hden : (0 : ℚ) < q.den := by exact_mod_cast q.den_pos
  have hq : q * q.den = q.num.natAbs := by
    rw [Rat.mul_den_eq_num, Nat.cast_natAbs, abs_of_pos (Rat.num_pos.mpr h)]
  unfold binaryExponent
  dsimp only
  rw [pow2_eq_zpow]
  generalize Nat.log2 q.num.natAbs = a at *
  generalize Nat.log2 q.den = b at *
  have hupper : q < 2 ^ ((a : Int) - b + 1) := by
    refine lt_of_mul_lt_mul_right ?_ hden.le
    calc q * q.den < 2 ^ ((a : Int) + 1) := hq ▸ hn2
      _ = 2 ^ ((a : Int) - b + 1) * 2 ^ (b : Int) := by
          rw [← zpow_add₀ (by norm_num)]
          congr 1
          ring
      _ ≤ 2 ^ ((a : Int) - b + 1) * q.den := by
          gcongr
  have hlower : 2 ^ ((a : Int) - b - 1) ≤ q := by
    refine le_of_mul_le_mul_right ?_ hden
    calc (2 : ℚ) ^ ((a : Int) - b - 1) * q.den ≤ 2 ^ ((a : Int) - b - 1) * 2 ^ ((b : Int) + 1) := by
          gcongr
      _ = 2 ^ (a : Int) := by
          rw [← zpow_add₀ (by norm_num)]
          congr 1
          ring
      _ ≤ q * q.den := hq ▸ hn1
  split
  · rename_i hle
    exact ⟨hle, hupper⟩
  · rename_i hlt
    refine ⟨hlower, ?_⟩
    rw [sub_add_cancel]
    exact not_le.mp hlt

theorem binaryExponent_le {q : ℚ} (h : 0 < q) {e : Int} (hq : q < 2 ^ (e + 1)) :
    binaryExponent q ≤ e := by
  have hlt := (binaryExponent_bounds h).1.trans_lt hq
  have := (zpow_lt_zpow_iff_right₀ (by norm_num : (1 : ℚ) < 2)).mp hlt
  omega

theorem le_binaryExponent {q : ℚ} (h : 0 < q) {e : Int} (hq : 2 ^ e ≤ q) :
    e ≤ binaryExponent q := by
  have hlt := hq.trans_lt (binaryExponent_bounds h).2
  have := (zpow_lt_zpow_iff_right₀ (by norm_num : (1 : ℚ) < 2)).mp hlt
  omega

/-! ### Rounding to binary64 -/

inductive Float
  | finite (q : ℚ)
  | inf (negative : Bool)
  | nan
deriving DecidableEq

/-- The exponent of the last place of the values around a rational. -/
def lastPlace (q : ℚ) : Int := max (binaryExponent |q|) (-1022) - 52

/-- Rounding to binary64. From `2 ^ 1024 - 2 ^ 970` on the result is infinite. -/
def Float.ofRat (q : ℚ) : Float :=
  if q = 0 then .finite 0
  else
    let ulp := pow2 (lastPlace q)
    let v := roundHalfEven (q / ulp) * ulp
    if pow2 1024 ≤ |v| then .inf (q < 0) else .finite v

theorem ofRat_ne_nan (q : ℚ) : Float.ofRat q ≠ .nan := by
  rw [Float.ofRat]
  split
  · intro h
    cases h
  · dsimp only
    split
    · intro h
      cases h
    · intro h
      cases h

/-- An integer multiple of a power of two with at most 53 bits, within the range. -/
structure IsDyadic (q : ℚ) : Prop where
  multiple : ∃ k e : Int, q = k * 2 ^ e ∧ |k| ≤ 2 ^ 53 ∧ -1074 ≤ e
  range : |q| < 2 ^ (1024 : Int)

theorem scaled_lt {q : ℚ} (h : q ≠ 0) : |q| / 2 ^ lastPlace q < 2 ^ (53 : Int) := by
  have hpos : (0 : ℚ) < 2 ^ lastPlace q := by positivity
  rw [div_lt_iff₀ hpos, ← zpow_add₀ (by norm_num)]
  refine (binaryExponent_bounds (abs_pos.mpr h)).2.trans_le ?_
  refine zpow_le_zpow_right₀ (by norm_num) ?_
  simp only [lastPlace]
  omega

/-- What rounding returns is dyadic. -/
theorem isDyadic_of_ofRat {v q : ℚ} (h : Float.ofRat v = .finite q) : IsDyadic q := by
  rw [Float.ofRat] at h
  split at h
  · cases h
    exact ⟨⟨0, 0, by simp, by decide, by decide⟩, by simp⟩
  · rename_i hv
    dsimp only at h
    split at h
    · cases h
    · rename_i hrange
      cases h
      rw [pow2_eq_zpow] at *
      refine ⟨⟨_, _, rfl, ?_, ?_⟩, not_le.mp (by rwa [pow2_eq_zpow] at hrange)⟩
      · refine abs_roundHalfEven_le ?_
        rw [abs_div, abs_of_pos (show (0 : ℚ) < 2 ^ lastPlace v by positivity)]
        refine (scaled_lt hv).le.trans ?_
        norm_num
      · rw [lastPlace]
        omega

/-- A dyadic value is an integer multiple of its own last place. -/
theorem IsDyadic.lastPlace_multiple {q : ℚ} (hq : q ≠ 0) (h : IsDyadic q) :
    ∃ n : Int, q / 2 ^ lastPlace q = n := by
  obtain ⟨k, e, hke, hk, he⟩ := h.multiple
  have h2 : (2 : ℚ) ≠ 0 := by norm_num
  by_cases hle : lastPlace q ≤ e
  · refine ⟨k * 2 ^ (e - lastPlace q).toNat, ?_⟩
    have hexp : (2 : ℚ) ^ e = 2 ^ (e - lastPlace q).toNat * 2 ^ lastPlace q := by
      rw [← zpow_natCast, ← zpow_add₀ h2]
      congr 1
      omega
    rw [div_eq_iff (by positivity)]
    push_cast
    rw [mul_assoc, ← hexp]
    exact hke
  · -- the last place lies above `e` only where `|k|` is `2 ^ 53`
    have hbe : binaryExponent |q| = lastPlace q + 52 := by
      simp only [lastPlace] at *
      omega
    have habs : |q| = |k| * 2 ^ e := by
      rw [hke, abs_mul, abs_of_pos (show (0 : ℚ) < 2 ^ e by positivity), Int.cast_abs]
    have hlow := (binaryExponent_bounds (abs_pos.mpr hq)).1
    rw [habs] at hlow
    have hkq : ((|k| : Int) : ℚ) ≤ 2 ^ (53 : Int) := by exact_mod_cast hk
    have hup : (2 : ℚ) ^ binaryExponent |q| ≤ 2 ^ (53 + e) := by
      rw [zpow_add₀ h2, habs]
      exact hlow.trans (by gcongr)
    have hbe' := (zpow_le_zpow_iff_right₀ (by norm_num : (1 : ℚ) < 2)).mp hup
    have hplace : lastPlace q = e + 1 := by omega
    have hk' : |k| = 2 ^ 53 := by
      refine le_antisymm hk ?_
      rw [← habs, hbe, hplace, habs, show e + 1 + 52 = 53 + e by ring, zpow_add₀ h2] at hlow
      have hcancel := le_of_mul_le_mul_right hlow (by positivity)
      exact_mod_cast hcancel
    have heven : k % 2 = 0 := by
      rcases abs_eq (by positivity : (0 : Int) ≤ 2 ^ 53) |>.mp hk' with h | h <;> omega
    refine ⟨k / 2, ?_⟩
    obtain ⟨m, hm⟩ := Int.dvd_of_emod_eq_zero heven
    rw [hplace, hke, zpow_add₀ h2, hm, Int.mul_ediv_cancel_left m (by decide)]
    push_cast
    field_simp

/-- Rounding leaves a dyadic value as it is. -/
theorem ofRat_of_isDyadic {q : ℚ} (h : IsDyadic q) : Float.ofRat q = .finite q := by
  rw [Float.ofRat]
  split
  · rename_i hq
    rw [hq]
  · rename_i hq
    obtain ⟨n, hn⟩ := h.lastPlace_multiple hq
    have hpos : (2 : ℚ) ^ lastPlace q ≠ 0 := by positivity
    have hback : (n : ℚ) * 2 ^ lastPlace q = q := by
      rw [← hn]
      field_simp
    dsimp only
    rw [pow2_eq_zpow, pow2_eq_zpow, hn, roundHalfEven_intCast, hback]
    rw [if_neg (not_le.mpr h.range)]

theorem IsDyadic.neg {q : ℚ} (h : IsDyadic q) : IsDyadic (-q) := by
  obtain ⟨k, e, hke, hk, he⟩ := h.multiple
  refine ⟨⟨-k, e, ?_, by rwa [abs_neg], he⟩, by rw [abs_neg]; exact h.range⟩
  rw [hke]
  push_cast
  ring

def Float.neg : Float → Float
  | .finite q => .finite (-q)
  | .inf negative => .inf !negative
  | .nan => .nan

def Float.abs : Float → Float
  | .finite q => .finite |q|
  | .inf _ => .inf false
  | .nan => .nan

theorem ofRat_neg (q : ℚ) : Float.ofRat (-q) = (Float.ofRat q).neg := by
  unfold Float.ofRat
  by_cases hq : q = 0
  · simp [hq, Float.neg]
  · rw [if_neg (neg_ne_zero.mpr hq), if_neg hq]
    have hplace : lastPlace (-q) = lastPlace q := by rw [lastPlace, lastPlace, abs_neg]
    dsimp only
    rw [hplace, neg_div, roundHalfEven_neg, Int.cast_neg, neg_mul, abs_neg]
    split
    · have hsign : decide (-q < 0) = !decide (q < 0) := by
        rcases lt_or_gt_of_ne hq with h | h <;> simp [h, h.le]
      rw [Float.neg, hsign]
    · rfl

/-! ### Rounding and order -/

theorem ofRat_of_pos {v : ℚ} (hv : 0 < v) :
    let q := roundHalfEven (v / 2 ^ lastPlace v) * (2 : ℚ) ^ lastPlace v
    Float.ofRat v = if 2 ^ (1024 : Int) ≤ q then .inf false else .finite q := by
  have hpos : (0 : ℚ) < 2 ^ lastPlace v := by positivity
  have hround : (0 : ℚ) ≤ roundHalfEven (v / 2 ^ lastPlace v) := by
    exact_mod_cast roundHalfEven_mono_int (n := 0) (by push_cast; positivity)
  dsimp only
  rw [Float.ofRat, if_neg hv.ne']
  dsimp only
  rw [pow2_eq_zpow, pow2_eq_zpow, abs_of_nonneg (mul_nonneg hround hpos.le),
    decide_eq_false (not_lt.mpr hv.le)]

theorem ofRat_nonneg {v q : ℚ} (hv : 0 ≤ v) (h : Float.ofRat v = .finite q) : 0 ≤ q := by
  obtain rfl | hpos := hv.eq_or_lt
  · rw [Float.ofRat, if_pos rfl] at h
    exact (Float.finite.inj h).le
  · rw [ofRat_of_pos hpos] at h
    split at h
    · cases h
    · obtain rfl := Float.finite.inj h
      refine mul_nonneg ?_ (by positivity)
      exact_mod_cast roundHalfEven_mono_int (n := 0) (by push_cast; positivity)

theorem binaryExponent_mono {v w : ℚ} (hv : 0 < v) (h : v ≤ w) :
    binaryExponent v ≤ binaryExponent w :=
  le_binaryExponent (hv.trans_le h) ((binaryExponent_bounds hv).1.trans h)

theorem lastPlace_mono {v w : ℚ} (hv : 0 < v) (h : v ≤ w) : lastPlace v ≤ lastPlace w := by
  have hexponent := binaryExponent_mono hv h
  rw [lastPlace, lastPlace, abs_of_pos hv, abs_of_pos (hv.trans_le h)]
  omega

/-- A dyadic value is a multiple of every place up to its own last one. -/
theorem IsDyadic.multiple_of_place {t : ℚ} (ht : IsDyadic t) (h0 : 0 < t) {place : Int}
    (h : place ≤ lastPlace t) : ∃ n : Int, t = n * 2 ^ place := by
  obtain ⟨n, hn⟩ := ht.lastPlace_multiple h0.ne'
  have hpos : (2 : ℚ) ^ lastPlace t ≠ 0 := by positivity
  refine ⟨n * 2 ^ (lastPlace t - place).toNat, ?_⟩
  rw [div_eq_iff hpos] at hn
  push_cast
  rw [mul_assoc, ← zpow_natCast, ← zpow_add₀ (by norm_num), Int.toNat_of_nonneg (by omega),
    sub_add_cancel]
  exact hn

/-- Rounding does not pass a dyadic value from below. -/
theorem ofRat_le {t v : ℚ} (ht : IsDyadic t) (hv : 0 < v) (h : v ≤ t) :
    ∃ q, Float.ofRat v = .finite q ∧ 0 ≤ q ∧ q ≤ t := by
  obtain ⟨n, hn⟩ := ht.multiple_of_place (hv.trans_le h) (lastPlace_mono hv h)
  have hpos : (0 : ℚ) < 2 ^ lastPlace v := by positivity
  have hround : roundHalfEven (v / 2 ^ lastPlace v) ≤ n := by
    apply roundHalfEven_le_int
    rw [div_le_iff₀ hpos, ← hn]
    exact h
  have hnonneg : 0 ≤ roundHalfEven (v / 2 ^ lastPlace v) :=
    roundHalfEven_mono_int (by push_cast; positivity)
  have hle : (roundHalfEven (v / 2 ^ lastPlace v) : ℚ) * 2 ^ lastPlace v ≤ t := by
    rw [hn]
    gcongr
  have hrange : ¬ (2 : ℚ) ^ (1024 : Int) ≤
      roundHalfEven (v / 2 ^ lastPlace v) * 2 ^ lastPlace v :=
    not_le.mpr (hle.trans_lt ((le_abs_self t).trans_lt ht.range))
  refine ⟨_, (ofRat_of_pos hv).trans (if_neg hrange), ?_, hle⟩
  exact mul_nonneg (by exact_mod_cast hnonneg) hpos.le

/-- Nor from above. -/
theorem le_ofRat {t v : ℚ} (ht : IsDyadic t) (h0 : 0 < t) (h : t ≤ v) :
    Float.ofRat v = .inf false ∨ ∃ q, Float.ofRat v = .finite q ∧ t ≤ q := by
  have hv : 0 < v := h0.trans_le h
  have hpos : (0 : ℚ) < 2 ^ lastPlace v := by positivity
  have hle : t ≤ (roundHalfEven (v / 2 ^ lastPlace v) : ℚ) * 2 ^ lastPlace v := by
    by_cases hplace : lastPlace v ≤ lastPlace t
    · obtain ⟨n, hn⟩ := ht.multiple_of_place h0 hplace
      have hround : n ≤ roundHalfEven (v / 2 ^ lastPlace v) := by
        apply roundHalfEven_mono_int
        rw [le_div_iff₀ hpos, ← hn]
        exact h
      rw [hn]
      gcongr
    · have hexponent : binaryExponent v = 52 + lastPlace v ∧
          binaryExponent t + 1 ≤ binaryExponent v := by
        rw [lastPlace, lastPlace, abs_of_pos hv, abs_of_pos h0] at *
        omega
      have hround : 2 ^ 52 ≤ roundHalfEven (v / 2 ^ lastPlace v) := by
        apply roundHalfEven_mono_int
        rw [le_div_iff₀ hpos]
        have hlow := (binaryExponent_bounds hv).1
        rw [hexponent.1, zpow_add₀ (by norm_num)] at hlow
        exact_mod_cast hlow
      calc t ≤ 2 ^ (binaryExponent t + 1) := (binaryExponent_bounds h0).2.le
        _ ≤ 2 ^ binaryExponent v := zpow_le_zpow_right₀ (by norm_num) hexponent.2
        _ = ((2 ^ 52 : Int) : ℚ) * 2 ^ lastPlace v := by
            rw [hexponent.1, zpow_add₀ (by norm_num)]
            norm_num
        _ ≤ _ := by gcongr
  rw [ofRat_of_pos hv]
  split
  · exact .inl rfl
  · exact .inr ⟨_, rfl, hle⟩

/-- Rounding keeps the sign and the unit interval. -/
theorem ofRat_unit {q : ℚ} (h : |q| ≤ 1) :
    ∃ v, Float.ofRat q = .finite v ∧ |v| ≤ 1 ∧ (0 ≤ q → 0 ≤ v) := by
  have hone : IsDyadic 1 := by
    refine ⟨⟨1, 0, by norm_num, by norm_num, by norm_num⟩, ?_⟩
    rw [abs_one]
    exact one_lt_zpow₀ (by norm_num) (by decide)
  obtain hneg | rfl | hpos := lt_trichotomy q 0
  · rw [abs_of_neg hneg] at h
    obtain ⟨v, hv, hnonneg, hle⟩ := ofRat_le hone (neg_pos.mpr hneg) h
    refine ⟨-v, ?_, ?_, fun hq => absurd hq (not_le.mpr hneg)⟩
    · rw [← neg_neg q, ofRat_neg, hv]
      rfl
    · rwa [abs_neg, abs_of_nonneg hnonneg]
  · exact ⟨0, if_pos rfl, h, fun hq => hq⟩
  · rw [abs_of_pos hpos] at h
    obtain ⟨v, hv, hnonneg, hle⟩ := ofRat_le hone hpos h
    refine ⟨v, hv, ?_, fun _ => hnonneg⟩
    rwa [abs_of_nonneg hnonneg]

/-- Rounding commutes with the absolute value. -/
theorem ofRat_abs {q : ℚ} (h : |q| ≤ 1) : Float.ofRat |q| = (Float.ofRat q).abs := by
  obtain ⟨v, hv, -, hsign⟩ := ofRat_unit h
  obtain hq | hq := le_total 0 q
  · rw [abs_of_nonneg hq, hv, Float.abs, abs_of_nonneg (hsign hq)]
  · obtain ⟨w, hw, -, hwsign⟩ := ofRat_unit (q := -q) (by rwa [abs_neg])
    have hneg : w = -v := by
      rw [ofRat_neg, hv, Float.neg] at hw
      exact (Float.finite.inj hw).symm
    have hnonneg : 0 ≤ w := hwsign (by linarith)
    rw [abs_of_nonpos hq, hw, hv, Float.abs, abs_of_nonpos (by linarith), hneg]

/-! ### Beyond the range -/

theorem ofRat_tiny {v : ℚ} (h : |v| < 2 ^ (-1075 : Int)) : Float.ofRat v = .finite 0 := by
  rw [Float.ofRat]
  split
  · rfl
  · rename_i hv
    have hbe : binaryExponent |v| ≤ -1022 := by
      apply binaryExponent_le (abs_pos.mpr hv)
      exact h.trans_le (zpow_le_zpow_right₀ (by norm_num) (by norm_num))
    have hplace : lastPlace v = -1074 := by
      rw [lastPlace]
      omega
    have hhalf : |v / 2 ^ (-1074 : Int)| < 1 / 2 := by
      rw [abs_div, abs_of_pos (show (0 : ℚ) < 2 ^ (-1074 : Int) by positivity),
        div_lt_iff₀ (by positivity)]
      refine h.trans_le (le_of_eq ?_)
      rw [show (1 / 2 : ℚ) = 2 ^ (-1 : Int) by norm_num, ← zpow_add₀ (by norm_num)]
      norm_num
    dsimp only
    rw [hplace, pow2_eq_zpow, pow2_eq_zpow, roundHalfEven_eq_zero hhalf]
    simp

theorem ofRat_huge {v : ℚ} (h : 2 ^ (1024 : Int) ≤ |v|) : Float.ofRat v = .inf (v < 0) := by
  have hv : v ≠ 0 := by
    rintro rfl
    rw [abs_zero] at h
    exact absurd h (not_le.mpr (by positivity))
  have hbe := le_binaryExponent (abs_pos.mpr hv) h
  have hpos : (0 : ℚ) < 2 ^ lastPlace v := by positivity
  have hplace : binaryExponent |v| = 52 + lastPlace v := by
    rw [lastPlace]
    omega
  have hscaled : ((2 ^ 52 : Int) : ℚ) ≤ |v / 2 ^ lastPlace v| := by
    rw [abs_div, abs_of_pos hpos, le_div_iff₀ hpos]
    push_cast
    have hlow := (binaryExponent_bounds (abs_pos.mpr hv)).1
    rwa [hplace, zpow_add₀ (by norm_num)] at hlow
  have hround : (2 : ℚ) ^ 52 ≤ |(roundHalfEven (v / 2 ^ lastPlace v) : ℚ)| := by
    exact_mod_cast le_abs_roundHalfEven hscaled
  rw [Float.ofRat]
  rw [if_neg hv]
  dsimp only
  rw [pow2_eq_zpow, pow2_eq_zpow, if_pos]
  calc (2 : ℚ) ^ (1024 : Int) ≤ 2 ^ binaryExponent |v| :=
        zpow_le_zpow_right₀ (by norm_num) hbe
    _ = 2 ^ 52 * 2 ^ lastPlace v := by rw [hplace, zpow_add₀ (by norm_num)]; norm_num
    _ ≤ |(roundHalfEven (v / 2 ^ lastPlace v) : ℚ)| * 2 ^ lastPlace v := by gcongr
    _ = _ := by rw [abs_mul, abs_of_pos hpos]

theorem lt_of_ofRat_finite {v q : ℚ} (h : Float.ofRat v = .finite q) :
    |v| < 2 ^ (1024 : Int) := by
  by_contra hge
  rw [ofRat_huge (not_lt.mp hge)] at h
  cases h

/-! ### Rounding keeps the order -/

theorem isDyadic_zpow {e : Int} (hlow : -1074 ≤ e) (hhigh : e < 1024) : IsDyadic (2 ^ e) where
  multiple := ⟨1, e, by simp, by norm_num, hlow⟩
  range := by
    rw [abs_of_pos (by positivity)]
    exact zpow_lt_zpow_right₀ (by norm_num) hhigh

theorem ofRat_mono_of_pos {v w a b : ℚ} (hv : 0 < v) (h : v ≤ w)
    (ha : Float.ofRat v = .finite a) (hb : Float.ofRat w = .finite b) : a ≤ b := by
  have hw := hv.trans_le h
  by_cases hplace : lastPlace v = lastPlace w
  · rw [ofRat_of_pos hv] at ha
    rw [ofRat_of_pos hw] at hb
    split at ha
    · cases ha
    split at hb
    · cases hb
    cases ha
    cases hb
    have hround : roundHalfEven (v / 2 ^ lastPlace v) ≤ roundHalfEven (w / 2 ^ lastPlace v) :=
      roundHalfEven_mono (by gcongr)
    rw [← hplace]
    gcongr
  · have hexponent : -1022 < binaryExponent w ∧ binaryExponent v + 1 ≤ binaryExponent w := by
      have hmono := lastPlace_mono hv h
      rw [lastPlace, lastPlace, abs_of_pos hv, abs_of_pos hw] at hplace hmono
      omega
    have hrange : binaryExponent w < 1024 := by
      have hlt := (binaryExponent_bounds hw).1.trans_lt
        ((le_abs_self w).trans_lt (lt_of_ofRat_finite hb))
      exact (zpow_lt_zpow_iff_right₀ (by norm_num : (1 : ℚ) < 2)).mp hlt
    have hdyadic := isDyadic_zpow (by omega) hrange
    obtain ⟨a', ha', -, hle⟩ := ofRat_le hdyadic hv ((binaryExponent_bounds hv).2.le.trans
      (zpow_le_zpow_right₀ (by norm_num) hexponent.2))
    obtain hinf | ⟨b', hb', hge⟩ := le_ofRat hdyadic (by positivity) (binaryExponent_bounds hw).1
    · rw [hb] at hinf
      cases hinf
    · cases ha.symm.trans ha'
      cases hb.symm.trans hb'
      exact hle.trans hge

/-- Rounding to binary64 keeps the order. -/
theorem ofRat_mono {v w a b : ℚ} (h : v ≤ w) (ha : Float.ofRat v = .finite a)
    (hb : Float.ofRat w = .finite b) : a ≤ b := by
  have hneg {u c : ℚ} (hc : Float.ofRat u = .finite c) : Float.ofRat (-u) = .finite (-c) := by
    rw [ofRat_neg, hc]
    rfl
  rcases lt_or_ge 0 v with hv | hv
  · exact ofRat_mono_of_pos hv h ha hb
  · rcases lt_or_ge w 0 with hw | hw
    · exact neg_le_neg_iff.mp
        (ofRat_mono_of_pos (neg_pos.mpr hw) (neg_le_neg h) (hneg hb) (hneg ha))
    · have hnonpos := ofRat_nonneg (neg_nonneg.mpr hv) (hneg ha)
      linarith [ofRat_nonneg hw hb]

end Python
