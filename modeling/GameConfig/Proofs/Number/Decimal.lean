import GameConfig.Number.Numeral
import GameConfig.Proofs.Number.Shortest

/-
  Decimals are rounded to the nearest double, whatever their size.

  `Numeral.ofDecimal` leaves out powers of ten that are far out.  The bits of the
  digits bound their places from both sides, so what is left out is rounded to
  zero or to infinity anyway (`ofDecimal_eq`).
-/

namespace GameConfig.Numeral

open Binary

-- powers are those of the core library, whatever algebra is imported
attribute [local instance (high)] instPowNat

/-- Ten bits make three places at least. -/
theorem ten_pow_le {n : ℕ} (hn : 0 < n) : 10 ^ (n.log2 * 3 / 10) ≤ n := by
  have hpow : (10 ^ (n.log2 * 3 / 10)) ^ 10 ≤ (2 ^ n.log2) ^ 10 :=
    calc (10 ^ (n.log2 * 3 / 10)) ^ 10 = 10 ^ (n.log2 * 3 / 10 * 10) := (Nat.pow_mul ..).symm
      _ ≤ 10 ^ (3 * n.log2) := Nat.pow_le_pow_right (by decide) (by omega)
      _ = (10 ^ 3) ^ n.log2 := Nat.pow_mul ..
      _ ≤ (2 ^ 10) ^ n.log2 := Nat.pow_le_pow_left (by decide) _
      _ = (2 ^ n.log2) ^ 10 := by rw [← Nat.pow_mul, ← Nat.pow_mul, Nat.mul_comm]
  exact ((Nat.pow_le_pow_iff_left (by decide)).1 hpow).trans (Nat.log2_self_le hn.ne')

/-- Thirteen bits make four places at most. -/
theorem lt_ten_pow (n : ℕ) : n < 10 ^ (n.log2 * 4 / 13 + 2) := by
  have hpow : (2 ^ (n.log2 + 1)) ^ 4 ≤ (10 ^ (n.log2 * 4 / 13 + 2)) ^ 4 :=
    calc (2 ^ (n.log2 + 1)) ^ 4 = 2 ^ ((n.log2 + 1) * 4) := (Nat.pow_mul ..).symm
      _ ≤ 2 ^ (13 * (n.log2 * 4 / 13 + 2)) := Nat.pow_le_pow_right (by decide) (by omega)
      _ = (2 ^ 13) ^ (n.log2 * 4 / 13 + 2) := Nat.pow_mul ..
      _ ≤ (10 ^ 4) ^ (n.log2 * 4 / 13 + 2) := Nat.pow_le_pow_left (by decide) _
      _ = (10 ^ (n.log2 * 4 / 13 + 2)) ^ 4 := by rw [← Nat.pow_mul, ← Nat.pow_mul, Nat.mul_comm]
  exact Nat.lt_log2_self.trans_le ((Nat.pow_le_pow_iff_left (by decide)).1 hpow)

/-- What is below the power of ten is rounded to zero. -/
theorem nearestRank_of_lt {r : Ratio} (hd : 0 < r.den) (h : r.value < 10 ^ (-398 : ℤ)) :
    nearestRank .double r = 0 := by
  have hmid : (10 : ℚ) ^ (-398 : ℤ) < Layout.double.midpoint 0 :=
    calc (10 : ℚ) ^ (-398 : ℤ) ≤ 2 ^ (-1194 : ℤ) := Decimal.ten_zpow_le_two_zpow (by norm_num) (by norm_num)
      _ < 2 ^ (-1 + -1074 : ℤ) := zpow_lt_zpow_right₀ one_lt_two (by norm_num)
      _ = (0 + 1 / 2) * 2 ^ (-1074 : ℤ) := by
        rw [zpow_add₀ two_ne_zero]
        norm_num
      _ = Layout.double.midpoint 0 := by
        rw [Layout.midpoint]
        norm_cast
  exact Nat.le_zero.1 ((nearestRank_le_iff hd 0).2 (.inl (h.trans hmid)))

/-- What is not below the power of ten is rounded to infinity. -/
theorem top_le_nearestRank {r : Ratio} (hd : 0 < r.den) (h : 10 ^ (400 : ℤ) ≤ r.value) :
    Layout.double.top ≤ nearestRank .double r := by
  have htop : (ratioOfRank .double Layout.double.top).value ≤ r.value :=
    calc (ratioOfRank .double Layout.double.top).value = 2 ^ (1024 : ℤ) := value_double_top
      _ ≤ 2 ^ (1200 : ℤ) := zpow_le_zpow_right₀ one_le_two (by norm_num)
      _ ≤ 10 ^ (400 : ℤ) := Decimal.two_zpow_le_ten_zpow (by norm_num) (by norm_num)
      _ ≤ r.value := h
  have hmono := nearestRank_mono (l := .double) (den_ratioOfRank_pos _) hd htop
  rwa [nearestRank_ratioOfRank] at hmono

theorem ofRank_eq_infinity (negative : Bool) {l : Layout} {rank : ℕ} (h : l.top ≤ rank) :
    (ofRank negative rank : Binary l) = infinity negative := by
  simp only [infinity, ofRank, Nat.min_eq_right h, Nat.min_self]

/-- **A decimal is rounded to the nearest double.** -/
theorem ofDecimal_eq (negative : Bool) (digits : ℕ) (exponent : ℤ) :
    ofDecimal negative digits exponent =
      .ofRatio negative (Ratio.scaled digits 10 exponent) := by
  have hd : 0 < (Ratio.scaled digits 10 exponent).den :=
    Ratio.den_scaled_pos digits (by decide) exponent
  have hvalue := Ratio.value_scaled digits 10 exponent
  have hten : (0 : ℚ) < 10 ^ exponent := by positivity
  have hne : (10 : ℚ) ≠ 0 := by norm_num
  unfold ofDecimal
  split
  · rename_i h
    have hzero : nearestRank .double (Ratio.scaled digits 10 exponent) = 0 := by
      rw [Bool.or_eq_true, decide_eq_true_eq, decide_eq_true_eq] at h
      rcases h with rfl | h
      · exact nearestRank_of_value_eq_zero hd (by simp [hvalue])
      · refine nearestRank_of_lt hd ?_
        calc (Ratio.scaled digits 10 exponent).value = digits * 10 ^ exponent := by
              rw [hvalue]
              norm_cast
          _ < ((10 ^ (digits.log2 * 4 / 13 + 2) : ℕ) : ℚ) * 10 ^ exponent := by
              gcongr
              exact lt_ten_pow digits
          _ = 10 ^ (((digits.log2 * 4 / 13 + 2 : ℕ) : ℤ) + exponent) := by
              rw [zpow_add₀ hne, zpow_natCast]
              push_cast
              rfl
          _ ≤ 10 ^ (-398 : ℤ) := zpow_le_zpow_right₀ (by norm_num) (by omega)
    rw [ofRatio, hzero]
  · rename_i hfine
    split
    · rename_i h
      have hpos : 0 < digits := by
        rw [Bool.or_eq_true, not_or, decide_eq_true_eq] at hfine
        exact Nat.pos_of_ne_zero hfine.1
      have htop := top_le_nearestRank hd (le_trans (?_ : (10 : ℚ) ^ (400 : ℤ) ≤ _) hvalue.ge)
      · rw [ofRatio, ofRank_eq_infinity negative htop]
      · calc (10 : ℚ) ^ (400 : ℤ) ≤ 10 ^ (((digits.log2 * 3 / 10 : ℕ) : ℤ) + exponent) :=
              zpow_le_zpow_right₀ (by norm_num) (by omega)
          _ = ((10 ^ (digits.log2 * 3 / 10) : ℕ) : ℚ) * 10 ^ exponent := by
              rw [zpow_add₀ hne, zpow_natCast]
              push_cast
              rfl
          _ ≤ digits * ((10 : ℕ) : ℚ) ^ exponent := by
              rw [Nat.cast_ofNat]
              gcongr
              exact ten_pow_le hpos
    · rfl

end GameConfig.Numeral
