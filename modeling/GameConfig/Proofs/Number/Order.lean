import GameConfig.Proofs.Number.Nearest

/-
  How rounded numbers compare.

  `Layout.nearestKey` is the key of the number nearest to a rational one.  It
  keeps the order, so rounded numbers are ordered as what they were rounded
  from, unless rounding has made them one: then the lesser is no longer less
  (`Binary.Rounds.le_iff`, `Binary.Rounds.lt_iff`).  Numbers that a layout has are
  kept apart (`Layout.Has.eq_of_merges`), and with them integers of 53 bits
  (`Layout.eq_of_merges_intCast`).
-/

namespace GameConfig

open Binary

-- powers are those of the core library, whatever algebra is imported
attribute [local instance (high)] instPowNat

/-! ## Keys -/

namespace Ratio

/-- The magnitude of a rational number. -/
def ofRat (q : ℚ) : Ratio := ⟨q.num.natAbs, q.den⟩

theorem den_ofRat_pos (q : ℚ) : 0 < (ofRat q).den := q.den_pos

theorem value_ofRat (q : ℚ) : (ofRat q).value = |q| := by
  rw [value, ofRat, Rat.abs_def, Rat.divInt_eq_div, Int.cast_natCast, Int.cast_natCast]

end Ratio

namespace Layout

variable {l : Layout} {a b : ℚ}

/-- The key of the number nearest to a rational one. -/
def nearestKey (l : Layout) (q : ℚ) : ℤ :=
  let rank := min (nearestRank l (Ratio.ofRat q)) l.top
  if q < 0 then -(rank : ℤ) else rank

theorem nearestKey_of_nonneg (h : 0 ≤ a) :
    l.nearestKey a = (min (nearestRank l (Ratio.ofRat a)) l.top : ℕ) := if_neg h.not_gt

theorem nearestKey_zero : l.nearestKey 0 = 0 := by
  have hvalue : (Ratio.ofRat 0).value = 0 := by rw [Ratio.value_ofRat, abs_zero]
  rw [nearestKey_of_nonneg le_rfl, nearestRank_of_value_eq_zero (Ratio.den_ofRat_pos 0) hvalue]
  omega

theorem nearestKey_neg (a : ℚ) : l.nearestKey (-a) = -l.nearestKey a := by
  have hmagnitude : Ratio.ofRat (-a) = Ratio.ofRat a := by simp [Ratio.ofRat]
  rcases lt_trichotomy a 0 with h | rfl | h
  · rw [nearestKey, nearestKey, if_neg (by linarith), if_pos h, hmagnitude, neg_neg]
  · rw [neg_zero, nearestKey_zero, neg_zero]
  · rw [nearestKey, nearestKey, if_pos (by linarith), if_neg (by linarith), hmagnitude]

theorem nearestKey_nonneg (h : 0 ≤ a) : 0 ≤ l.nearestKey a := by
  rw [nearestKey_of_nonneg h]
  omega

/-- Rounding keeps the order of what is not negative. -/
theorem nearestKey_le_of_nonneg (ha : 0 ≤ a) (h : a ≤ b) : l.nearestKey a ≤ l.nearestKey b := by
  have hrank : nearestRank l (Ratio.ofRat a) ≤ nearestRank l (Ratio.ofRat b) := by
    refine nearestRank_mono (Ratio.den_ofRat_pos a) (Ratio.den_ofRat_pos b) ?_
    rw [Ratio.value_ofRat, Ratio.value_ofRat, abs_of_nonneg ha, abs_of_nonneg (ha.trans h)]
    exact h
  rw [nearestKey_of_nonneg ha, nearestKey_of_nonneg (ha.trans h)]
  omega

/-- **Rounding keeps the order.** -/
theorem nearestKey_mono (h : a ≤ b) : l.nearestKey a ≤ l.nearestKey b := by
  rcases le_total 0 a with ha | ha
  · exact nearestKey_le_of_nonneg ha h
  rcases le_total 0 b with hb | hb
  · have hneg := nearestKey_nonneg (l := l) (neg_nonneg.2 ha)
    rw [nearestKey_neg] at hneg
    have hpos := nearestKey_nonneg (l := l) hb
    omega
  · -- below zero the order is the one of the magnitudes, reversed
    have hneg := nearestKey_le_of_nonneg (l := l) (neg_nonneg.2 hb) (neg_le_neg h)
    rw [nearestKey_neg, nearestKey_neg] at hneg
    omega

/-- Two numbers that are rounded to one. -/
def Merges (l : Layout) (a b : ℚ) : Prop := l.nearestKey a = l.nearestKey b

instance : Decidable (l.Merges a b) := inferInstanceAs (Decidable (_ = _))

theorem merges_comm : l.Merges a b ↔ l.Merges b a := eq_comm

theorem nearestKey_le_iff : l.nearestKey a ≤ l.nearestKey b ↔ a ≤ b ∨ l.Merges a b := by
  constructor
  · intro h
    rcases le_or_gt a b with hab | hba
    · exact .inl hab
    · exact .inr (le_antisymm h (nearestKey_mono hba.le))
  · rintro (h | h)
    · exact nearestKey_mono h
    · exact h.le

theorem nearestKey_lt_iff : l.nearestKey a < l.nearestKey b ↔ a < b ∧ ¬ l.Merges a b := by
  rw [← not_le, nearestKey_le_iff, not_or, not_le, merges_comm]

/-! ## Numbers that a layout has -/

/-- The layout has this number, up to its sign. -/
def Has (l : Layout) (q : ℚ) : Prop := ∃ rank < l.top, (ratioOfRank l rank).value = |q|

/-- A number of the layout is rounded to itself. -/
theorem natAbs_nearestKey {rank : ℕ} (hrank : rank < l.top)
    (h : (ratioOfRank l rank).value = |a|) : (l.nearestKey a).natAbs = rank := by
  have hnearest : nearestRank l (Ratio.ofRat a) = rank := by
    rw [nearestRank_congr (Ratio.den_ofRat_pos a) (den_ratioOfRank_pos rank)
      ((Ratio.value_ofRat a).trans h.symm), nearestRank_ratioOfRank]
  rw [nearestKey, hnearest]
  split <;> omega

/-- **Numbers that a layout has are kept apart.** -/
theorem Has.eq_of_merges (ha : l.Has a) (hb : l.Has b) (h : l.Merges a b) : a = b := by
  obtain ⟨rank, hrank, hvalue⟩ := ha
  obtain ⟨rank', hrank', hvalue'⟩ := hb
  have hkey := natAbs_nearestKey hrank hvalue
  have hkey' := natAbs_nearestKey hrank' hvalue'
  rw [← h, hkey] at hkey'
  subst hkey'
  rcases abs_eq_abs.1 (hvalue.symm.trans hvalue') with heq | heq
  · exact heq
  · -- what is rounded as its opposite is zero
    rw [Merges, heq, nearestKey_neg] at h
    rw [heq, nearestKey_neg] at hkey
    obtain rfl : rank = 0 := by omega
    rw [value_ratioOfRank_zero] at hvalue'
    rw [heq, abs_eq_zero.1 hvalue'.symm, neg_zero]

/-- Integers that fit the significand are numbers of the layout. -/
theorem has_intCast {i : ℤ} (hi : i.natAbs < 2 ^ 53) : double.Has i := by
  obtain ⟨rank, hrank⟩ := exists_rank (l := double) hi (e := 0) (by decide)
  rw [zpow_zero, mul_one] at hrank
  refine ⟨rank, ?_, ?_⟩
  · rw [← not_le]
    intro hge
    have hvalue := value_ratioOfRank_mono (l := double) hge
    rw [hrank, value_double_top] at hvalue
    have hlt : (i.natAbs : ℚ) < 2 ^ (53 : ℤ) := by exact_mod_cast hi
    have hpow : (2 : ℚ) ^ (53 : ℤ) ≤ 2 ^ (1024 : ℤ) := zpow_le_zpow_right₀ one_le_two (by norm_num)
    exact hvalue.not_gt (hlt.trans_le hpow)
  · rw [hrank, Nat.cast_natAbs, Int.cast_abs]

/-- **Doubles keep such integers apart.** -/
theorem eq_of_merges_intCast {i j : ℤ} (hi : i.natAbs < 2 ^ 53) (hj : j.natAbs < 2 ^ 53)
    (h : double.Merges i j) : i = j :=
  Int.cast_injective ((has_intCast hi).eq_of_merges (has_intCast hj) h)

end Layout

/-! ## Comparison -/

namespace Binary

variable {l : Layout}

/-- The number is the one nearest to a rational number; for zero, one of the two zeros. -/
def Rounds (x : Binary l) (q : ℚ) : Prop := x.key = some (l.nearestKey q)

theorem rounds_ofRatio (negative : Bool) {r : Ratio} (hd : 0 < r.den) :
    (ofRatio negative r : Binary l).Rounds (if negative then -r.value else r.value) := by
  have hmagnitude : nearestRank l r = nearestRank l (Ratio.ofRat r.value) := by
    refine nearestRank_congr hd (Ratio.den_ofRat_pos _) ?_
    rw [Ratio.value_ofRat, abs_of_nonneg r.value_nonneg]
  have hkey := Layout.nearestKey_of_nonneg (l := l) r.value_nonneg
  rw [← hmagnitude] at hkey
  cases negative with
  | false => simp [Rounds, ofRatio, ofRank, key, hkey]
  | true => simp [Rounds, ofRatio, ofRank, key, Layout.nearestKey_neg, hkey]

theorem rounds_ofInt (i : ℤ) : (ofInt i : Binary l).Rounds i := by
  have h := rounds_ofRatio (l := l) (decide (i < 0)) (r := ⟨i.natAbs, 1⟩) Nat.one_pos
  have hvalue : (if decide (i < 0) = true then -(⟨i.natAbs, 1⟩ : Ratio).value
      else (⟨i.natAbs, 1⟩ : Ratio).value) = i := by
    simp only [Ratio.value, Nat.cast_one, div_one, decide_eq_true_eq, Nat.cast_natAbs]
    split
    · rename_i h
      rw [abs_of_neg h]
      simp
    · rename_i h
      rw [abs_of_nonneg (by omega)]
  rwa [hvalue] at h

variable {x y : Binary l} {a b : ℚ}

theorem lt_self_eq_false (x : Binary l) : x.lt x = false := by
  cases x <;> simp [lt, key]

/-- **What is rounded to one number is at most each other.** -/
theorem Rounds.le_iff (hx : x.Rounds a) (hy : y.Rounds b) :
    x.le y = true ↔ a ≤ b ∨ l.Merges a b := by
  rw [le, hx, hy, decide_eq_true_eq, Layout.nearestKey_le_iff]

theorem Rounds.lt_iff (hx : x.Rounds a) (hy : y.Rounds b) :
    x.lt y = true ↔ a < b ∧ ¬ l.Merges a b := by
  rw [lt, hx, hy, decide_eq_true_eq, Layout.nearestKey_lt_iff]

end Binary

end GameConfig
