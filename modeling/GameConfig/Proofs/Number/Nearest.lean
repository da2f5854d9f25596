import GameConfig.Proofs.Number.Rounding

/-
  Rounding to the nearest rank.

  Halfway between a rank and the next one is its *midpoint*.  What is below the
  midpoint is rounded to the rank at most, what is above it to the next rank at
  least, and the midpoint itself to the rank with the even significand
  (`nearestRank_le_iff`).  So rounding keeps the order, does not depend on how a
  fraction is written, and leaves magnitudes of ranks as they are.

  * `Layout.rank_eq`: how ranks are made of exponents and significands;
  * `Binary.value_succ`: the distance to the next rank;
  * `Binary.exists_nearestRank_eq`: where in its octave a fraction is rounded;
  * `Binary.exists_rank`: what is a magnitude of the layout.
-/

namespace GameConfig

-- powers are those of the core library, whatever algebra is imported
attribute [local instance (high)] instPowNat

namespace Ratio

section

variable {r : Ratio} (hd : 0 < r.den) (n : ℕ)

include hd

theorem value_lt_half_iff : r.value < n + 1 / 2 ↔ 2 * r.num < (2 * n + 1) * r.den := by
  have hden : (0 : ℚ) < r.den := by exact_mod_cast hd
  rw [value, div_lt_iff₀ hden, ← Nat.cast_lt (α := ℚ)]
  push_cast
  constructor <;> intro h <;> linarith

theorem value_eq_half_iff : r.value = n + 1 / 2 ↔ 2 * r.num = (2 * n + 1) * r.den := by
  have hden : (0 : ℚ) < r.den := by exact_mod_cast hd
  rw [value, div_eq_iff hden.ne', ← Nat.cast_inj (R := ℚ)]
  push_cast
  constructor <;> intro h <;> linarith

/-- **Halves are rounded to the even neighbour**, everything else to the nearest one. -/
theorem roundEven_le_iff :
    r.roundEven ≤ n ↔ r.value < n + 1 / 2 ∨ (r.value = n + 1 / 2 ∧ n % 2 = 0) := by
  rw [value_lt_half_iff hd, value_eq_half_iff hd]
  have hmod := Nat.mod_lt r.num hd
  have hnum := Nat.div_add_mod r.num r.den
  unfold roundEven
  dsimp only
  generalize r.num / r.den = q at hnum ⊢
  generalize r.num % r.den = rest at hmod hnum ⊢
  -- the natural part decides unless it is the number itself
  rcases lt_trichotomy q n with hq | rfl | hq
  · have hmul : r.den * (q + 1) ≤ r.den * n := Nat.mul_le_mul_left _ hq
    have hround : (if 2 * rest < r.den then q else if r.den < 2 * rest then q + 1
        else q + q % 2) ≤ n := by
      split
      · omega
      · split <;> omega
    refine iff_of_true hround (.inl ?_)
    rw [mul_add] at hmul
    linarith
  · have hsplit : (2 * q + 1) * r.den = 2 * (r.den * q) + r.den := by ring
    rw [hsplit, ← hnum]
    split
    · omega
    · split <;> omega
  · have hmul : r.den * (n + 1) ≤ r.den * q := Nat.mul_le_mul_left _ hq
    have hround : ¬ (if 2 * rest < r.den then q else if r.den < 2 * rest then q + 1
        else q + q % 2) ≤ n := by
      split
      · omega
      · split <;> omega
    refine iff_of_false hround ?_
    rw [mul_add] at hmul
    have hsplit : (2 * n + 1) * r.den = 2 * (r.den * n) + r.den := by ring
    rw [hsplit]
    omega

end

/-- Rounding does not go below a natural number. -/
theorem le_roundEven {r : Ratio} (hd : 0 < r.den) {n : ℕ} (h : n ≤ r.value) :
    n ≤ r.roundEven := by
  cases n with
  | zero => exact Nat.zero_le _
  | succ n =>
    rw [Nat.succ_le_iff, ← not_le, roundEven_le_iff hd]
    push_cast at h
    rintro (hlt | ⟨heq, -⟩) <;> linarith

end Ratio

/-! ## Ranks -/

namespace Layout

variable (l : Layout)

theorem significand_lt (rank : ℕ) : l.significand rank < 2 ^ (l.fractionBits + 1) := by
  have := Nat.mod_lt rank (Nat.two_pow_pos l.fractionBits)
  rw [pow_succ]
  unfold significand
  split <;> omega

theorem leastExponent_le (rank : ℕ) : l.leastExponent ≤ l.exponent rank := by
  unfold exponent
  split <;> omega

/-- A rank is made of its exponent and its significand. -/
theorem rank_eq (rank : ℕ) :
    rank = (l.exponent rank - l.leastExponent).toNat * 2 ^ l.fractionBits +
      l.significand rank := by
  have hpos := Nat.two_pow_pos l.fractionBits
  unfold exponent significand
  generalize 2 ^ l.fractionBits = N at hpos ⊢
  split
  · simp
  · rename_i h
    have hdiv := Nat.div_add_mod' rank N
    have hone : 1 ≤ rank / N := Nat.div_pos (by omega) hpos
    obtain ⟨q, hq⟩ := Nat.exists_eq_add_of_le' hone
    rw [hq, add_mul] at hdiv
    rw [hq, add_sub_cancel_left, Int.toNat_natCast, Nat.add_sub_cancel]
    omega

/-- Above the least exponent a significand has its first bit. -/
theorem two_pow_le_significand {rank : ℕ} (h : l.leastExponent < l.exponent rank) :
    2 ^ l.fractionBits ≤ l.significand rank := by
  unfold exponent at h
  unfold significand
  split
  · rename_i hrank
    rw [if_pos hrank] at h
    exact absurd h (lt_irrefl _)
  · exact Nat.le_add_right _ _

/-- The rank that an exponent and a significand make has them. -/
theorem significand_exponent_of_eq {rank : ℕ} {e : ℤ} {m : ℕ} (he : l.leastExponent ≤ e)
    (hm : m < 2 ^ (l.fractionBits + 1)) (hfirst : l.leastExponent < e → 2 ^ l.fractionBits ≤ m)
    (h : rank = (e - l.leastExponent).toNat * 2 ^ l.fractionBits + m) :
    l.significand rank = m ∧ l.exponent rank = e := by
  have hpos := Nat.two_pow_pos l.fractionBits
  rw [pow_succ] at hm
  unfold significand exponent
  generalize 2 ^ l.fractionBits = N at *
  rcases lt_or_ge m N with hlow | hhigh
  · have he' : e = l.leastExponent := by
      by_contra hne
      exact absurd (hfirst (lt_of_le_of_ne he (Ne.symm hne))) (by omega)
    have hrank : rank = m := by simp [h, he']
    rw [hrank, if_pos hlow, if_pos hlow]
    exact ⟨rfl, he'.symm⟩
  · obtain ⟨rest, rfl⟩ := Nat.exists_eq_add_of_le hhigh
    have hrank : rank = N * ((e - l.leastExponent).toNat + 1) + rest := by
      rw [h]
      ring
    have hdiv : rank / N = (e - l.leastExponent).toNat + 1 := by
      rw [hrank, Nat.mul_add_div hpos, Nat.div_eq_of_lt (by omega), Nat.add_zero]
    have hmod : rank % N = rest := by
      rw [hrank, Nat.mul_add_mod, Nat.mod_eq_of_lt (by omega)]
    have hge : ¬ rank < N := by
      rw [h]
      omega
    rw [if_neg hge, if_neg hge, hdiv, hmod]
    omega

/-- The next rank has the next significand, or is the first of the next octave. -/
theorem significand_exponent_succ (rank : ℕ) :
    (l.significand (rank + 1) = l.significand rank + 1 ∧
        l.exponent (rank + 1) = l.exponent rank) ∨
      (l.significand rank + 1 = 2 ^ (l.fractionBits + 1) ∧
        l.significand (rank + 1) = 2 ^ l.fractionBits ∧
        l.exponent (rank + 1) = l.exponent rank + 1) := by
  have hrank := l.rank_eq rank
  have hexp := l.leastExponent_le rank
  rcases (Nat.succ_le_of_lt (l.significand_lt rank)).lt_or_eq with hlt | heq
  · exact .inl (l.significand_exponent_of_eq hexp hlt
      (fun h => (l.two_pow_le_significand h).trans (Nat.le_succ _)) (by omega))
  · -- the significand is full
    refine .inr ⟨heq, l.significand_exponent_of_eq (by omega)
      (Nat.pow_lt_pow_succ one_lt_two) (fun _ => le_rfl) ?_⟩
    have hcarry : (l.exponent rank + 1 - l.leastExponent).toNat =
        (l.exponent rank - l.leastExponent).toNat + 1 := by omega
    rw [pow_succ] at heq
    rw [hcarry, add_mul]
    omega

theorem exponent_le_succ (rank : ℕ) : l.exponent rank ≤ l.exponent (rank + 1) := by
  rcases l.significand_exponent_succ rank with ⟨-, he⟩ | ⟨-, -, he⟩ <;> omega

/-- An octave ends where the next one begins. -/
theorem octave_le {a b : ℤ} (ha : l.leastExponent ≤ a) (h : a < b) :
    (a - l.leastExponent).toNat * 2 ^ l.fractionBits + 2 ^ l.fractionBits ≤
      (b - l.leastExponent).toNat * 2 ^ l.fractionBits := by
  rw [← Nat.succ_mul]
  exact Nat.mul_le_mul_right _ (by omega)

/-- Ranks beside each other are not both even. -/
theorem significand_succ_even_iff (hl : 0 < l.fractionBits) (rank : ℕ) :
    l.significand (rank + 1) % 2 = 0 ↔ l.significand rank % 2 = 1 := by
  obtain ⟨n, hn⟩ := Nat.exists_eq_add_of_le' hl
  rcases l.significand_exponent_succ rank with ⟨hs, -⟩ | ⟨hfull, hs, -⟩
  · omega
  · rw [pow_succ] at hfull
    rw [hn, pow_succ] at hs
    omega

/-- Halfway from a rank to the next one. -/
def midpoint (rank : ℕ) : ℚ := (l.significand rank + 1 / 2) * 2 ^ l.exponent rank

end Layout

namespace Binary

variable {l : Layout}

/-- A rank within the layout is that of its number. -/
theorem ofRank_val (negative : Bool) (rank : Fin (l.top + 1)) :
    ofRank negative rank.val = ranked negative rank := by
  unfold ofRank
  congr 2
  exact Nat.min_eq_left (Nat.le_of_lt_succ rank.isLt)

theorem value_ratioOfRank (rank : ℕ) :
    (ratioOfRank l rank).value = l.significand rank * 2 ^ l.exponent rank := by
  rw [ratioOfRank, Ratio.value_scaled, Nat.cast_ofNat]

/-- What the rank of infinity would be as a magnitude. -/
theorem value_double_top : (ratioOfRank .double Layout.double.top).value = 2 ^ (1024 : ℤ) :=
  calc (ratioOfRank .double Layout.double.top).value = (2 ^ 52 : ℕ) * 2 ^ (972 : ℤ) :=
        value_ratioOfRank _
    _ = 2 ^ (52 + 972 : ℤ) := by
      rw [zpow_add₀ two_ne_zero]
      norm_num

theorem den_ratioOfRank_pos (rank : ℕ) : 0 < (ratioOfRank l rank).den :=
  Ratio.den_scaled_pos _ two_pos _

/-- A rank is one unit of its last place below the next one. -/
theorem value_succ (rank : ℕ) :
    (ratioOfRank l (rank + 1)).value = (l.significand rank + 1) * 2 ^ l.exponent rank := by
  rw [value_ratioOfRank]
  rcases l.significand_exponent_succ rank with ⟨hs, he⟩ | ⟨hfull, hs, he⟩
  · rw [hs, he]
    push_cast
    rfl
  · have hfull' : (l.significand rank + 1 : ℚ) = 2 ^ l.fractionBits * 2 := by
      rw [← pow_succ]
      exact_mod_cast hfull
    rw [hs, he, hfull', zpow_add_one₀ two_ne_zero]
    push_cast
    ring

theorem value_lt_midpoint (rank : ℕ) : (ratioOfRank l rank).value < l.midpoint rank := by
  rw [value_ratioOfRank, Layout.midpoint]
  gcongr
  norm_num

theorem midpoint_lt_value_succ (rank : ℕ) : l.midpoint rank < (ratioOfRank l (rank + 1)).value := by
  rw [value_succ, Layout.midpoint]
  gcongr
  norm_num

/-- Magnitudes are ordered strictly as ranks are. -/
theorem strictMono_value_ratioOfRank : StrictMono fun rank => (ratioOfRank l rank).value :=
  strictMono_nat_of_lt_succ fun rank => (value_lt_midpoint rank).trans (midpoint_lt_value_succ rank)

/-- **Magnitudes are ordered as ranks are.** -/
theorem value_ratioOfRank_mono {a b : ℕ} (h : a ≤ b) :
    (ratioOfRank l a).value ≤ (ratioOfRank l b).value :=
  strictMono_value_ratioOfRank.monotone h

/-- A rank above the first octave is at least the power of two that its octave begins with. -/
theorem two_zpow_le_value {rank : ℕ} (h : l.leastExponent < l.exponent rank) :
    (2 : ℚ) ^ (l.fractionBits + l.exponent rank) ≤ (ratioOfRank l rank).value := by
  have hfirst := l.two_pow_le_significand h
  calc (2 : ℚ) ^ (l.fractionBits + l.exponent rank) =
        ((2 ^ l.fractionBits : ℕ) : ℚ) * 2 ^ l.exponent rank := by
        rw [zpow_add₀ two_ne_zero, zpow_natCast]
        push_cast
        rfl
    _ ≤ (ratioOfRank l rank).value := by
        rw [value_ratioOfRank]
        gcongr

/-- Midpoints are below the power of two that the next octave begins with. -/
theorem midpoint_lt_two_zpow (rank : ℕ) :
    l.midpoint rank < 2 ^ (l.fractionBits + 1 + l.exponent rank) := by
  have hsig := Nat.succ_le_of_lt (l.significand_lt rank)
  calc l.midpoint rank < (l.significand rank + 1) * 2 ^ l.exponent rank := by
        rw [← value_succ]
        exact midpoint_lt_value_succ rank
    _ ≤ ((2 ^ (l.fractionBits + 1) : ℕ) : ℚ) * 2 ^ l.exponent rank := by
        gcongr
        exact_mod_cast hsig
    _ = 2 ^ (l.fractionBits + 1 + l.exponent rank) := by
        rw [Nat.cast_pow, Nat.cast_ofNat, ← zpow_natCast, ← zpow_add₀ two_ne_zero]
        push_cast
        rfl

/-- What is below a power of two has an exponent below it, or the least one. -/
theorem exponent_le_of_value_lt {rank : ℕ} {e : ℤ} (he : l.leastExponent ≤ e)
    (h : (ratioOfRank l rank).value < 2 ^ (l.fractionBits + 1 + e)) : l.exponent rank ≤ e := by
  rcases (l.leastExponent_le rank).eq_or_lt with hleast | hlt
  · exact hleast ▸ he
  · have := (zpow_lt_zpow_iff_right₀ (one_lt_two (α := ℚ))).1 ((two_zpow_le_value hlt).trans_lt h)
    omega

/-! ## Rounding -/

/-- The rank nearest to a fraction is made of an exponent, which is that of the fraction or the
    least one, and of the significand that the fraction is rounded to. -/
theorem exists_nearestRank_eq {r : Ratio} (hn : 0 < r.num) (hd : 0 < r.den) :
    ∃ (e : ℤ) (s : ℕ), nearestRank l r = (e - l.leastExponent).toNat * 2 ^ l.fractionBits + s ∧
      l.leastExponent ≤ e ∧ s ≤ 2 ^ l.fractionBits * 2 ∧
      r.value < 2 ^ (l.fractionBits + 1 + e) ∧
      (l.leastExponent < e → 2 ^ l.fractionBits ≤ s ∧ 2 ^ (l.fractionBits + e) ≤ r.value) ∧
      ∀ n : ℕ, s ≤ n ↔ r.value < (n + 1 / 2) * 2 ^ e ∨
        (r.value = (n + 1 / 2) * 2 ^ e ∧ n % 2 = 0) := by
  obtain ⟨hlo, hhi⟩ := Ratio.floorLog2_spec hn hd
  generalize he : max l.leastExponent (r.floorLog2 - l.fractionBits) = e
  have hden := Ratio.den_unscale_pos hd two_pos e
  have hscale : (0 : ℚ) < 2 ^ e := by positivity
  have hvalue : (r.unscale 2 e).value = r.value / 2 ^ e := by
    rw [Ratio.value_unscale, Nat.cast_ofNat]
  refine ⟨e, (r.unscale 2 e).roundEven, ?_, by omega, ?_, ?_, fun hlt => ?_, fun n => ?_⟩
  · rw [nearestRank, if_neg hn.ne', ← he]
  · rw [← pow_succ]
    exact roundEven_unscale_le hn hd (by omega)
  · exact hhi.trans_le (zpow_le_zpow_right₀ one_le_two (by omega))
  · have hge : (2 : ℚ) ^ (l.fractionBits + e) ≤ r.value := by
      rw [show l.fractionBits + e = r.floorLog2 by omega]
      exact hlo
    refine ⟨Ratio.le_roundEven hden ?_, hge⟩
    rw [hvalue, le_div_iff₀ hscale, Nat.cast_pow, Nat.cast_ofNat, ← zpow_natCast,
      ← zpow_add₀ two_ne_zero]
    exact hge
  · rw [Ratio.roundEven_le_iff hden, hvalue, div_lt_iff₀ hscale, div_eq_iff hscale.ne']

/-- **What is at most the midpoint is rounded to the rank at most**, the midpoint itself if the
    significand is even. -/
theorem nearestRank_le_iff {r : Ratio} (hd : 0 < r.den) (rank : ℕ) :
    nearestRank l r ≤ rank ↔
      r.value < l.midpoint rank ∨ (r.value = l.midpoint rank ∧ l.significand rank % 2 = 0) := by
  rcases Nat.eq_zero_or_pos r.num with hzero | hn
  · have hmid : 0 < l.midpoint rank := by
      unfold Layout.midpoint
      positivity
    refine iff_of_true ?_ (.inl ?_)
    · simp [nearestRank, hzero]
    · simpa [Ratio.value, hzero] using hmid
  obtain ⟨e, s, heq, hleast, hs, hhi, hfirst, hround⟩ := exists_nearestRank_eq (l := l) hn hd
  have hrank := l.rank_eq rank
  have hsig := l.significand_lt rank
  rw [pow_succ] at hsig
  rw [heq]
  rcases lt_trichotomy e (l.exponent rank) with hlt | rfl | hgt
  · -- a lower octave
    have hoctave := l.octave_le hleast hlt
    have hfirst' := l.two_pow_le_significand (hleast.trans_lt hlt)
    refine iff_of_true (by omega) (.inl ?_)
    calc r.value < 2 ^ (l.fractionBits + 1 + e) := hhi
      _ ≤ 2 ^ (l.fractionBits + l.exponent rank) := zpow_le_zpow_right₀ one_le_two (by omega)
      _ ≤ (ratioOfRank l rank).value := two_zpow_le_value (hleast.trans_lt hlt)
      _ < l.midpoint rank := value_lt_midpoint rank
  · -- the same octave: significands are compared
    have hsame : (l.exponent rank - l.leastExponent).toNat * 2 ^ l.fractionBits + s ≤ rank ↔
        s ≤ l.significand rank := by omega
    rw [hsame, hround]
    rfl
  · -- a higher octave
    have hoctave := l.octave_le (l.leastExponent_le rank) hgt
    obtain ⟨hfirst, hlo⟩ := hfirst ((l.leastExponent_le rank).trans_lt hgt)
    have habove : l.midpoint rank < r.value := by
      calc l.midpoint rank < 2 ^ (l.fractionBits + 1 + l.exponent rank) := midpoint_lt_two_zpow rank
        _ ≤ 2 ^ (l.fractionBits + e) := zpow_le_zpow_right₀ one_le_two (by omega)
        _ ≤ r.value := hlo
    refine iff_of_false (by omega) ?_
    rintro (h | ⟨h, -⟩)
    · exact habove.not_gt h
    · exact habove.ne' h

/-- Rounding keeps the order. -/
theorem nearestRank_mono {r r' : Ratio} (hd : 0 < r.den) (hd' : 0 < r'.den)
    (h : r.value ≤ r'.value) : nearestRank l r ≤ nearestRank l r' := by
  rcases (nearestRank_le_iff hd' _).1 le_rfl with hlt | ⟨heq, heven⟩
  · exact (nearestRank_le_iff hd _).2 (.inl (h.trans_lt hlt))
  · exact (nearestRank_le_iff hd _).2 ((h.trans_eq heq).lt_or_eq.imp_right fun h => ⟨h, heven⟩)

/-- Rounding does not depend on how a fraction is written. -/
theorem nearestRank_congr {r r' : Ratio} (hd : 0 < r.den) (hd' : 0 < r'.den)
    (h : r.value = r'.value) : nearestRank l r = nearestRank l r' :=
  le_antisymm (nearestRank_mono hd hd' h.le) (nearestRank_mono hd' hd h.ge)

/-- **What is at least the midpoint is rounded to the next rank at least**, the midpoint itself if
    the significand is odd. -/
theorem le_nearestRank_iff {r : Ratio} (hd : 0 < r.den) (rank : ℕ) :
    rank + 1 ≤ nearestRank l r ↔ l.midpoint rank < r.value ∨
      (r.value = l.midpoint rank ∧ l.significand rank % 2 = 1) := by
  rw [Nat.succ_le_iff, ← not_le, nearestRank_le_iff hd]
  have := Nat.mod_two_eq_zero_or_one (l.significand rank)
  rcases lt_trichotomy r.value (l.midpoint rank) with h | h | h
  · simp [h, h.ne, h.not_gt]
  · simp [h]
  · simp [h, h.ne', h.not_gt]

/-- **The magnitude of a rank is rounded to that rank.** -/
theorem nearestRank_ratioOfRank (rank : ℕ) : nearestRank l (ratioOfRank l rank) = rank := by
  refine le_antisymm ((nearestRank_le_iff (den_ratioOfRank_pos rank) rank).2
    (.inl (value_lt_midpoint rank))) ?_
  cases rank with
  | zero => exact Nat.zero_le _
  | succ rank =>
    exact (le_nearestRank_iff (den_ratioOfRank_pos _) rank).2 (.inl (midpoint_lt_value_succ rank))

theorem value_ratioOfRank_zero : (ratioOfRank l 0).value = 0 := by
  simp [value_ratioOfRank, Layout.significand]

theorem nearestRank_of_value_eq_zero {r : Ratio} (hd : 0 < r.den) (h : r.value = 0) :
    nearestRank l r = 0 := by
  rw [nearestRank_congr hd (den_ratioOfRank_pos 0) (h.trans value_ratioOfRank_zero.symm),
    nearestRank_ratioOfRank]

/-- Rounding does not go beyond a magnitude. -/
theorem value_nearestRank_le {r : Ratio} (hd : 0 < r.den) {rank : ℕ}
    (h : r.value ≤ (ratioOfRank l rank).value) :
    (ratioOfRank l (nearestRank l r)).value ≤ (ratioOfRank l rank).value := by
  have hle := nearestRank_mono (l := l) hd (den_ratioOfRank_pos rank) h
  rw [nearestRank_ratioOfRank] at hle
  exact value_ratioOfRank_mono hle

theorem le_value_nearestRank {r : Ratio} (hd : 0 < r.den) {rank : ℕ}
    (h : (ratioOfRank l rank).value ≤ r.value) :
    (ratioOfRank l rank).value ≤ (ratioOfRank l (nearestRank l r)).value := by
  have hle := nearestRank_mono (l := l) (den_ratioOfRank_pos rank) hd h
  rw [nearestRank_ratioOfRank] at hle
  exact value_ratioOfRank_mono hle

/-- **Rounding moves by half a unit of the last place at most.** -/
theorem abs_sub_value_nearestRank_le {r : Ratio} (hd : 0 < r.den) :
    |r.value - (ratioOfRank l (nearestRank l r)).value| ≤ 2 ^ l.exponent (nearestRank l r) / 2 := by
  generalize hrank : nearestRank l r = rank
  have hhigh : r.value ≤ l.midpoint rank := by
    rcases (nearestRank_le_iff hd rank).1 hrank.le with h | ⟨h, -⟩
    · exact h.le
    · exact h.le
  rw [abs_le]
  constructor
  · cases rank with
    | zero =>
      rw [value_ratioOfRank_zero, sub_zero]
      exact (neg_nonpos.2 (by positivity)).trans r.value_nonneg
    | succ rank =>
      have hlow : l.midpoint rank ≤ r.value := by
        rcases (le_nearestRank_iff hd rank).1 hrank.ge with h | ⟨h, -⟩
        · exact h.le
        · exact h.ge
      have hexp : (2 : ℚ) ^ l.exponent rank ≤ 2 ^ l.exponent (rank + 1) :=
        zpow_le_zpow_right₀ one_le_two (l.exponent_le_succ rank)
      rw [value_succ]
      rw [Layout.midpoint] at hlow
      linarith
  · rw [Layout.midpoint] at hhigh
    rw [value_ratioOfRank]
    linarith

/-- **What has few enough bits is the magnitude of a rank**, unless its last place is below
    all magnitudes. -/
theorem exists_rank {n : ℕ} (hn : n < 2 ^ (l.fractionBits + 1)) {e : ℤ}
    (he : l.leastExponent ≤ e) : ∃ rank, (ratioOfRank l rank).value = n * 2 ^ e := by
  -- the exponent goes down until it is the least one or the significand has all its bits
  obtain ⟨k, rfl⟩ : ∃ k : ℕ, e = l.leastExponent + k := ⟨(e - l.leastExponent).toNat, by omega⟩
  induction k generalizing n with
  | zero =>
    obtain ⟨hs, he⟩ : l.significand n = n ∧ l.exponent n = l.leastExponent :=
      l.significand_exponent_of_eq le_rfl hn (fun h => absurd h (lt_irrefl _)) (by simp)
    exact ⟨n, by rw [value_ratioOfRank, hs, he]; simp⟩
  | succ k ih =>
    rcases lt_or_ge n (2 ^ l.fractionBits) with hlow | hhigh
    · obtain ⟨rank, hrank⟩ := ih (n := 2 * n) (by rw [pow_succ]; omega) (by omega)
      refine ⟨rank, ?_⟩
      rw [hrank, Nat.cast_succ, ← add_assoc, zpow_add_one₀ two_ne_zero]
      push_cast
      ring
    · obtain ⟨hs, he⟩ := l.significand_exponent_of_eq (e := l.leastExponent + (k + 1 : ℕ))
        (by omega) hn (fun _ => hhigh) rfl
      exact ⟨_, by rw [value_ratioOfRank, hs, he]⟩

end Binary

end GameConfig
