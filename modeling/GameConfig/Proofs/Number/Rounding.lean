import GameConfig.Number.Binary
import Mathlib.Algebra.Order.Field.Power
import Mathlib.Data.Nat.Log
import Mathlib.Data.Rat.Cast.Order
import Mathlib.Tactic.FieldSimp
import Mathlib.Tactic.Linarith
import Mathlib.Tactic.Positivity
import Mathlib.Tactic.Ring

/-
  How large a rounded number is.

  The rank nearest to a fraction is bounded by the power of two above it, and a
  rank bounds its magnitude; so what is not too large stays finite when it is
  rounded.

  * `Ratio.floorLog2_spec`: the powers of two on either side of a fraction;
  * `nearestRank_le`: the bound on the rank nearest to a fraction;
  * `magnitude_ofRatio_le`: rounding at most quadruples the power of two above;
  * `isFinite_ofRatio`: fractions up to a power of two have finite neighbours;
  * `ofNat_finite` and `div_finite`: so have natural numbers of 64 bits as
    doubles, and quotients by what is at least one.
-/

namespace GameConfig

/-! ## Fractions -/

namespace Ratio

/-- The value of a fraction. -/
def value (r : Ratio) : ℚ := r.num / r.den

theorem value_nonneg (r : Ratio) : 0 ≤ r.value := by
  unfold value; positivity

theorem value_scaled (n base : ℕ) (e : ℤ) : (scaled n base e).value = n * (base : ℚ) ^ e := by
  unfold scaled value
  split
  · rename_i he
    obtain ⟨k, rfl⟩ := Int.eq_ofNat_of_zero_le he
    simp
  · rename_i he
    obtain ⟨k, hk⟩ := Int.eq_ofNat_of_zero_le (show 0 ≤ -e by omega)
    rw [hk, show e = -(k : ℤ) by omega]
    simp [div_eq_mul_inv]

theorem den_scaled_pos (n : ℕ) {base : ℕ} (hb : 0 < base) (e : ℤ) : 0 < (scaled n base e).den := by
  unfold scaled
  split
  · exact Nat.one_pos
  · exact Nat.pow_pos hb

theorem value_unscale (r : Ratio) (base : ℕ) (e : ℤ) :
    (r.unscale base e).value = r.value / (base : ℚ) ^ e := by
  unfold unscale value
  split
  · rename_i he
    obtain ⟨k, rfl⟩ := Int.eq_ofNat_of_zero_le he
    simp [div_div]
  · rename_i he
    obtain ⟨k, hk⟩ := Int.eq_ofNat_of_zero_le (show 0 ≤ -e by omega)
    rw [hk, show e = -(k : ℤ) by omega]
    simp [div_eq_mul_inv, mul_right_comm]

theorem den_unscale_pos {r : Ratio} (hd : 0 < r.den) {base : ℕ} (hb : 0 < base) (e : ℤ) :
    0 < (r.unscale base e).den := by
  unfold unscale
  split
  · exact Nat.mul_pos hd (Nat.pow_pos hb)
  · exact hd

theorem num_lt_den_iff {r : Ratio} (hd : 0 < r.den) : r.num < r.den ↔ r.value < 1 := by
  have : (0 : ℚ) < r.den := by exact_mod_cast hd
  rw [value, div_lt_one this]
  exact_mod_cast Iff.rfl

/-- A natural number lies between two powers of two. -/
theorem log2_spec {n : ℕ} (hn : 0 < n) :
    (2 : ℚ) ^ (n.log2 : ℤ) ≤ n ∧ (n : ℚ) < 2 ^ ((n.log2 : ℤ) + 1) := by
  constructor
  · exact_mod_cast Nat.log2_self_le hn.ne'
  · exact_mod_cast Nat.lt_log2_self (n := n)

/-- The logarithms of numerator and denominator give the one of the fraction, or one more. -/
theorem value_bounds {r : Ratio} (hn : 0 < r.num) (hd : 0 < r.den) :
    (2 : ℚ) ^ ((r.num.log2 : ℤ) - r.den.log2 - 1) ≤ r.value ∧
      r.value < 2 ^ ((r.num.log2 : ℤ) - r.den.log2 + 1) := by
  obtain ⟨hn₁, hn₂⟩ := log2_spec hn
  obtain ⟨hd₁, hd₂⟩ := log2_spec hd
  have hden : (0 : ℚ) < r.den := by exact_mod_cast hd
  have two : (2 : ℚ) ≠ 0 := by norm_num
  unfold value
  constructor
  · rw [le_div_iff₀ hden]
    calc (2 : ℚ) ^ ((r.num.log2 : ℤ) - r.den.log2 - 1) * r.den
        ≤ 2 ^ ((r.num.log2 : ℤ) - r.den.log2 - 1) * 2 ^ ((r.den.log2 : ℤ) + 1) := by gcongr
      _ = 2 ^ (r.num.log2 : ℤ) := by rw [← zpow_add₀ two]; congr 1; ring
      _ ≤ r.num := hn₁
  · rw [div_lt_iff₀ hden]
    calc (r.num : ℚ) < 2 ^ ((r.num.log2 : ℤ) + 1) := hn₂
      _ = 2 ^ ((r.num.log2 : ℤ) - r.den.log2 + 1) * 2 ^ (r.den.log2 : ℤ) := by
        rw [← zpow_add₀ two]; congr 1; ring
      _ ≤ 2 ^ ((r.num.log2 : ℤ) - r.den.log2 + 1) * r.den := by gcongr

/-- **A positive fraction lies between the power of two that it is given and the next one.** -/
theorem floorLog2_spec {r : Ratio} (hn : 0 < r.num) (hd : 0 < r.den) :
    (2 : ℚ) ^ r.floorLog2 ≤ r.value ∧ r.value < 2 ^ (r.floorLog2 + 1) := by
  obtain ⟨hlo, hhi⟩ := value_bounds hn hd
  have hpow : (0 : ℚ) < 2 ^ ((r.num.log2 : ℤ) - r.den.log2) := by positivity
  have htest := num_lt_den_iff (den_unscale_pos hd two_pos ((r.num.log2 : ℤ) - r.den.log2))
  rw [value_unscale, Nat.cast_ofNat, div_lt_one hpow] at htest
  unfold floorLog2
  dsimp only
  split
  · rename_i h
    rw [sub_add_cancel]
    exact ⟨hlo, htest.1 h⟩
  · rename_i h
    exact ⟨not_lt.1 fun hlt => h (htest.2 hlt), hhi⟩

/-- Rounding does not go beyond a natural number. -/
theorem roundEven_le {r : Ratio} (hd : 0 < r.den) {n : ℕ} (h : r.value ≤ n) :
    r.roundEven ≤ n := by
  have hden : (0 : ℚ) < r.den := by exact_mod_cast hd
  have hmul : r.num ≤ n * r.den := by
    rw [value, div_le_iff₀ hden] at h
    exact_mod_cast h
  have hdiv := Nat.div_add_mod r.num r.den
  have hq : r.num / r.den ≤ n := Nat.div_le_of_le_mul (by rwa [mul_comm])
  unfold roundEven
  dsimp only
  rcases hq.lt_or_eq with hlt | heq
  · split
    · omega
    · split
      · omega
      · have := Nat.mod_two_eq_zero_or_one (r.num / r.den)
        omega
  · -- at the number itself nothing is left to round
    have hmod : r.num % r.den = 0 := by
      rw [heq, mul_comm] at hdiv
      omega
    rw [if_pos (by omega)]
    exact hq

end Ratio

/-! ## Ranks -/

namespace Binary

variable {l : Layout}

/-- The significand of a fraction has no more bits than the layout, or is the next power of two. -/
theorem roundEven_unscale_le {r : Ratio} (hn : 0 < r.num) (hd : 0 < r.den) {e : ℤ}
    (he : r.floorLog2 - l.fractionBits ≤ e) :
    (r.unscale 2 e).roundEven ≤ 2 ^ (l.fractionBits + 1) := by
  obtain ⟨-, hhi⟩ := Ratio.floorLog2_spec hn hd
  refine Ratio.roundEven_le (Ratio.den_unscale_pos hd two_pos e) ?_
  rw [Ratio.value_unscale, Nat.cast_ofNat, div_le_iff₀ (by positivity)]
  calc r.value ≤ 2 ^ (r.floorLog2 + 1) := hhi.le
    _ ≤ 2 ^ ((l.fractionBits + 1 : ℕ) + e) := by
      refine zpow_le_zpow_right₀ (by norm_num) ?_
      push_cast
      omega
    _ = ((2 ^ (l.fractionBits + 1) : ℕ) : ℚ) * 2 ^ e := by
      rw [zpow_add₀ (by norm_num), zpow_natCast]
      norm_cast

/-- **The rank nearest to a fraction is bounded by a power of two above the fraction.** -/
theorem nearestRank_le {r : Ratio} (hd : 0 < r.den) {k : ℤ}
    (hk : l.leastExponent + l.fractionBits ≤ k) (h : r.value ≤ 2 ^ k) :
    (nearestRank l r : ℤ) ≤ (k - l.fractionBits - l.leastExponent + 2) * 2 ^ l.fractionBits := by
  have hpos : (0 : ℤ) ≤ k - l.fractionBits - l.leastExponent := by omega
  unfold nearestRank
  split
  · positivity
  rename_i hn
  obtain ⟨hlo, -⟩ := Ratio.floorLog2_spec (Nat.pos_of_ne_zero hn) hd
  have hlog : r.floorLog2 ≤ k := (zpow_le_zpow_iff_right₀ (by norm_num)).1 (hlo.trans h)
  dsimp only
  generalize he : max l.leastExponent (r.floorLog2 - l.fractionBits) = e
  have hround := roundEven_unscale_le (l := l) (e := e) (Nat.pos_of_ne_zero hn) hd (by omega)
  have hexp : ((e - l.leastExponent).toNat : ℤ) ≤ k - l.fractionBits - l.leastExponent := by
    omega
  have hround' : ((r.unscale 2 e).roundEven : ℤ) ≤ 2 * 2 ^ l.fractionBits := by
    rw [pow_succ, mul_comm] at hround
    exact_mod_cast hround
  push_cast
  rw [add_mul]
  gcongr

/-- **A rank bounds its magnitude.** -/
theorem value_ratioOfRank_le {rank : ℕ} {m : ℤ} (hm : 1 ≤ m)
    (h : (rank : ℤ) ≤ m * 2 ^ l.fractionBits) :
    (ratioOfRank l rank).value ≤ 2 ^ (l.leastExponent + l.fractionBits + m) := by
  have hsig : l.significand rank ≤ 2 ^ (l.fractionBits + 1) := by
    have := Nat.mod_lt rank (Nat.two_pow_pos l.fractionBits)
    rw [pow_succ]
    unfold Layout.significand
    split <;> omega
  have hexp : l.exponent rank ≤ l.leastExponent + m - 1 := by
    unfold Layout.exponent
    split
    · omega
    · have hdiv : ((rank / 2 ^ l.fractionBits : ℕ) : ℤ) ≤ m := by
        push_cast
        exact Int.ediv_le_of_le_mul (by positivity) h
      omega
  rw [ratioOfRank, Ratio.value_scaled, Nat.cast_ofNat]
  calc (l.significand rank : ℚ) * 2 ^ l.exponent rank
      ≤ ((2 ^ (l.fractionBits + 1) : ℕ) : ℚ) * 2 ^ (l.leastExponent + m - 1) := by
        gcongr
        norm_num
    _ = 2 ^ (l.leastExponent + l.fractionBits + m) := by
        rw [Nat.cast_pow, Nat.cast_ofNat, ← zpow_natCast, ← zpow_add₀ (by norm_num)]
        congr 1
        push_cast
        ring

/-- Rounding at most quadruples the power of two above a fraction. -/
theorem magnitude_ofRatio_le (negative : Bool) {r : Ratio} (hd : 0 < r.den) {k : ℤ}
    (hk : l.leastExponent + l.fractionBits ≤ k) (h : r.value ≤ 2 ^ k) :
    (ofRatio negative r : Binary l).magnitude.value ≤ 2 ^ (k + 2) := by
  have hrank := nearestRank_le hd hk h
  unfold ofRatio ofRank magnitude
  dsimp only
  split
  · refine (value_ratioOfRank_le (m := k - l.fractionBits - l.leastExponent + 2) (by omega)
      (le_trans (by exact_mod_cast Nat.min_le_left _ _) hrank)).trans_eq ?_
    congr 1
    ring
  · simp only [Ratio.value, Nat.cast_zero, zero_div]
    positivity

/-- **The number nearest to a fraction that is not too large is finite.** -/
theorem isFinite_ofRatio (negative : Bool) {r : Ratio} (hd : 0 < r.den) {k : ℤ}
    (hk : l.leastExponent + l.fractionBits ≤ k) (h : r.value ≤ 2 ^ k)
    (htop : k - l.fractionBits - l.leastExponent + 2 < 2 ^ l.exponentBits - 1) :
    (ofRatio negative r : Binary l).isFinite = true := by
  have hrank := nearestRank_le hd hk h
  have hlt : (nearestRank l r : ℤ) < l.top := by
    refine hrank.trans_lt ?_
    rw [Layout.top, Nat.cast_mul, Nat.cast_sub (Nat.one_le_two_pow), Nat.cast_pow, Nat.cast_pow]
    push_cast
    gcongr
  unfold ofRatio ofRank isFinite
  simp
  omega

/-! ## Doubles -/

/-- The nearest double to what fits 64 bits. -/
theorem ofNat_finite (negative : Bool) {n : ℕ} (h : n ≤ 2 ^ 64) :
    (ofRatio negative ⟨n, 1⟩ : Double).isFinite = true ∧
      (ofRatio negative ⟨n, 1⟩ : Double).magnitude.value ≤ 2 ^ (66 : ℤ) := by
  have hv : (⟨n, 1⟩ : Ratio).value ≤ 2 ^ (64 : ℤ) := by
    simp only [Ratio.value, Nat.cast_one, div_one]
    exact_mod_cast h
  exact ⟨isFinite_ofRatio negative Nat.one_pos (by decide) hv (by decide),
    magnitude_ofRatio_le negative Nat.one_pos (by decide) hv⟩

theorem den_magnitude_pos (x : Binary l) : 0 < x.magnitude.den := by
  unfold magnitude
  split
  · exact Nat.one_pos
  · split
    · exact Ratio.den_scaled_pos _ two_pos _
    · exact Nat.one_pos

/-- Dividing by what is at least one leaves what is not too large finite. -/
theorem div_finite {x y : Double} (hy : y.magnitude.den ≤ y.magnitude.num) {k : ℤ}
    (hk : -1022 ≤ k ∧ k ≤ 1022) (hx : x.magnitude.value ≤ 2 ^ k) :
    (x.div y).isFinite = true ∧ (x.div y).magnitude.value ≤ 2 ^ (k + 2) := by
  have hnum := (den_magnitude_pos y).trans_le hy
  have hone : 1 ≤ y.magnitude.value := not_lt.1 fun h =>
    hy.not_gt ((Ratio.num_lt_den_iff (den_magnitude_pos y)).2 h)
  have hv : (⟨x.magnitude.num * y.magnitude.den, x.magnitude.den * y.magnitude.num⟩ :
      Ratio).value ≤ 2 ^ k := by
    calc (⟨x.magnitude.num * y.magnitude.den, x.magnitude.den * y.magnitude.num⟩ : Ratio).value
        = x.magnitude.value / y.magnitude.value := by
          simp only [Ratio.value, Nat.cast_mul, div_div_div_eq]
      _ ≤ x.magnitude.value := div_le_self x.magnitude.value_nonneg hone
      _ ≤ 2 ^ k := hx
  have hden := Nat.mul_pos (den_magnitude_pos x) hnum
  have hleast : Layout.double.leastExponent = -1074 := by decide
  refine ⟨isFinite_ofRatio _ hden ?_ hv ?_, magnitude_ofRatio_le _ hden ?_ hv⟩
  all_goals
    rw [hleast]
    simp only [Layout.double]
    omega

end Binary

end GameConfig
