import NexusBackend.Persistence.TickWire

/-!
The column `price NUMERIC(18, 4)` of `market_tick` behind the float of the wire: which of
the parsed prices the column still holds when the worker hands them over.
-/
namespace NexusBackend

open Python

/-- A value kept as `NUMERIC(18, 4)`, in ten-thousandths; halves are rounded away from zero. -/
def tenThousandths (q : ℚ) : Int :=
  if q < 0 then -⌊-q * 10000 + 1 / 2⌋ else ⌊q * 10000 + 1 / 2⌋

/-- Eighteen digits hold it. -/
def FitsColumn (q : ℚ) : Prop := |tenThousandths q| < 10 ^ 18

instance (q : ℚ) : Decidable (FitsColumn q) := inferInstanceAs (Decidable (_ < _))

/-- Where prices start whose float has fifteen digits before the point. -/
def priceLimit : ℚ := 10 ^ 14 - 1 / 128

theorem lt_range {q : ℚ} (h : q ≤ 10 ^ 14) : q < 2 ^ (1024 : Int) := by
  calc q ≤ 10 ^ 14 := h
    _ < 2 ^ (47 : Int) := by norm_num
    _ ≤ 2 ^ (1024 : Int) := zpow_le_zpow_right₀ (by norm_num) (by norm_num)

theorem isDyadic_hundredTrillion : IsDyadic (10 ^ 14) where
  multiple := ⟨10 ^ 14, 0, by norm_num, by norm_num, by norm_num⟩
  range := by
    rw [abs_of_pos (by norm_num)]
    exact lt_range le_rfl

theorem isDyadic_below : IsDyadic (10 ^ 14 - 1 / 64) where
  multiple := ⟨6399999999999999, -6, by norm_num, by norm_num, by norm_num⟩
  range := by
    rw [abs_of_pos (by norm_num)]
    exact lt_range (by norm_num)

theorem lastPlace_near {v : ℚ} (hlow : 10 ^ 14 - 1 / 64 ≤ v) (hhigh : v ≤ 10 ^ 14) :
    lastPlace v = -6 := by
  have hv : 0 < v := lt_of_lt_of_le (by norm_num) hlow
  have hle : binaryExponent v ≤ 46 :=
    binaryExponent_le hv (hhigh.trans_lt (by norm_num))
  have hge : 46 ≤ binaryExponent v :=
    le_binaryExponent hv (le_trans (by norm_num) hlow)
  rw [lastPlace, abs_of_pos hv]
  omega

theorem ofRat_near {v : ℚ} (hlow : 10 ^ 14 - 1 / 64 ≤ v) (hhigh : v ≤ 10 ^ 14) {n : Int}
    (h : IsRounding (v * 64) n) (hn : n ≤ 6400000000000000) :
    Float.ofRat v = .finite (n / 64) := by
  have hv : 0 < v := lt_of_lt_of_le (by norm_num) hlow
  have hscaled : v / 2 ^ (-6 : Int) = v * 64 := by
    rw [zpow_neg, div_inv_eq_mul]
    norm_num
  have hle : (n : ℚ) ≤ 6400000000000000 := by exact_mod_cast hn
  have hround : (n : ℚ) * 2 ^ (-6 : Int) = n / 64 := by norm_num [div_eq_mul_inv]
  rw [ofRat_of_pos hv, lastPlace_near hlow hhigh, hscaled, roundHalfEven_eq h, hround, if_neg]
  exact not_le.mpr (lt_range (by linarith))

theorem ofRat_to_limit {v : ℚ} (hlow : 10 ^ 14 - 1 / 64 ≤ v) (hhigh : v < priceLimit) :
    Float.ofRat v = .finite (10 ^ 14 - 1 / 64) := by
  rw [priceLimit] at hhigh
  have hround : IsRounding (v * 64) 6399999999999999 := by
    left
    rw [abs_lt]
    push_cast
    constructor <;> linarith
  rw [ofRat_near hlow (by linarith) hround (by norm_num)]
  norm_num

theorem ofRat_from_limit {v : ℚ} (hlow : priceLimit ≤ v) (hhigh : v ≤ 10 ^ 14) :
    Float.ofRat v = .finite (10 ^ 14) := by
  rw [priceLimit] at hlow
  have hround : IsRounding (v * 64) 6400000000000000 := by
    obtain heq | hlt := hlow.eq_or_lt
    · right
      rw [← heq]
      exact ⟨by rw [abs_of_neg (by norm_num)]; norm_num, by norm_num⟩
    · left
      rw [abs_lt]
      push_cast
      constructor <;> linarith
  rw [ofRat_near (by linarith) hhigh hround le_rfl]
  norm_num

theorem ofRat_below_limit {v : ℚ} (h0 : 0 < v) (h : v < priceLimit) :
    ∃ q, Float.ofRat v = .finite q ∧ 0 ≤ q ∧ q < 10 ^ 14 := by
  obtain hle | hlt := le_total v (10 ^ 14 - 1 / 64)
  · obtain ⟨q, hq, hnonneg, hqle⟩ := ofRat_le isDyadic_below h0 hle
    exact ⟨q, hq, hnonneg, hqle.trans_lt (by norm_num)⟩
  · exact ⟨_, ofRat_to_limit hlt h, by norm_num, by norm_num⟩

theorem ofRat_above_limit {v : ℚ} (h : priceLimit ≤ v) :
    Float.ofRat v = .inf false ∨ ∃ q, Float.ofRat v = .finite q ∧ 10 ^ 14 ≤ q := by
  obtain hle | hlt := le_total v (10 ^ 14)
  · exact .inr ⟨_, ofRat_from_limit h hle, le_rfl⟩
  · exact le_ofRat isDyadic_hundredTrillion (by norm_num) hlt

theorem floor_lt_limit {q : ℚ} (h : q < priceLimit) : ⌊q * 10000 + 1 / 2⌋ < 10 ^ 18 := by
  rw [Int.floor_lt]
  rw [priceLimit] at h
  push_cast
  linarith

theorem fitsColumn_of_lt {q : ℚ} (hlow : -q < priceLimit) (hhigh : q < priceLimit) :
    FitsColumn q := by
  rw [FitsColumn, tenThousandths]
  split
  · rename_i hneg
    rw [abs_neg, abs_of_nonneg (Int.floor_nonneg.mpr (by linarith))]
    exact floor_lt_limit hlow
  · rename_i hneg
    rw [abs_of_nonneg (Int.floor_nonneg.mpr (by linarith [not_lt.mp hneg]))]
    exact floor_lt_limit hhigh

theorem not_fitsColumn_of_le {q : ℚ} (h : 10 ^ 14 ≤ q) : ¬ FitsColumn q := by
  have hfloor : 10 ^ 18 ≤ ⌊q * 10000 + 1 / 2⌋ := by
    rw [Int.le_floor]
    push_cast
    linarith
  rw [FitsColumn, tenThousandths, if_neg (by linarith), not_lt]
  exact hfloor.trans (le_abs_self _)

/-- A decimal of a float below the limit fits. -/
theorem fitsColumn_of_ofRat {d q : ℚ} (h : Float.ofRat d = .finite q) (h0 : 0 ≤ q)
    (hlt : q < 10 ^ 14) : FitsColumn d := by
  apply fitsColumn_of_lt
  · by_contra hge
    obtain hinf | ⟨w, hw, hle⟩ := ofRat_above_limit (not_lt.mp hge)
    · rw [ofRat_neg, h] at hinf
      cases hinf
    · rw [ofRat_neg, h] at hw
      have := Float.finite.inj hw
      linarith
  · by_contra hge
    obtain hinf | ⟨w, hw, hle⟩ := ofRat_above_limit (not_lt.mp hge)
    · rw [h] at hinf
      cases hinf
    · rw [h] at hw
      have := Float.finite.inj hw
      linarith

/-- Only the float at the limit is also that of smaller decimals. -/
theorem le_of_ofRat {d q : ℚ} (h : Float.ofRat d = .finite q) (hgt : 10 ^ 14 < q) :
    10 ^ 14 ≤ d := by
  by_contra hlt
  have hd := not_le.mp hlt
  by_cases hpos : 0 < d
  · by_cases hlimit : d < priceLimit
    · obtain ⟨w, hw, -, hle⟩ := ofRat_below_limit hpos hlimit
      rw [h] at hw
      have := Float.finite.inj hw
      linarith
    · rw [ofRat_from_limit (not_lt.mp hlimit) hd.le] at h
      have := Float.finite.inj h
      linarith
  · have hneg : Float.ofRat (-d) = .finite (-q) := by
      rw [ofRat_neg, h]
      rfl
    have := ofRat_nonneg (by linarith : 0 ≤ -d) hneg
    linarith

/-- At the limit the shortest text is the number itself. -/
theorem text_at_limit : (Decimal.ofText? (Float.text (.finite (10 ^ 14)))).map Decimal.toRat =
    some (10 ^ 14) := by
  decide +kernel

/-- A price below the limit comes through to the column, and no other does. -/
theorem price_fits_iff {tick : Tick} (h : 0 < tick.price.toRat) :
    (wirePrice tick).isFinite = true ∧ FitsColumn (wirePrice tick).toRat ↔
      tick.price.toRat < priceLimit := by
  obtain ⟨-, hfloat, hfinite⟩ := wirePrice_spec tick
  have hprice := toFloat_of_isFinite tick.price_finite
  constructor
  · intro ⟨hwire, hfits⟩
    by_contra hge
    obtain hinf | ⟨q, hq, hle⟩ := ofRat_above_limit (not_lt.mp hge)
    · obtain ⟨q, hq⟩ := hfinite.mp hwire
      rw [hprice, hinf] at hq
      cases hq
    · have hd : 10 ^ 14 ≤ (wirePrice tick).toRat := by
        obtain heq | hgt := hle.eq_or_lt
        · obtain ⟨d, hd, hvalue⟩ := Option.map_eq_some_iff.mp text_at_limit
          rw [wirePrice, hprice, hq, ← heq, hd]
          exact hvalue.ge
        · refine le_of_ofRat ?_ hgt
          rw [← toFloat_of_isFinite hwire, hfloat, hprice, hq]
      exact not_fitsColumn_of_le hd hfits
  · intro hlt
    obtain ⟨q, hq, hnonneg, hsmall⟩ := ofRat_below_limit h hlt
    have hwire := hfinite.mpr ⟨q, hprice.trans hq⟩
    refine ⟨hwire, fitsColumn_of_ofRat ?_ hnonneg hsmall⟩
    rw [← toFloat_of_isFinite hwire, hfloat, hprice, hq]

end NexusBackend
