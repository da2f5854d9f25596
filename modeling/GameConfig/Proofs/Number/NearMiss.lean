import GameConfig.Proofs.Number.Rounding

/-
  How near decimals come to the midpoints between singles.

  The midpoints at one exponent are multiples of a power of two, by numbers of
  25 bits, and decimals with no more digits than a single needs are multiples
  of a power of ten.  If some of them nearly meet, the quotient of the two
  powers has a good approximation by a fraction; then the two factors are
  multiples of its two sides (`factors_of_near`).  A fraction that is good
  enough is found for each exponent (`exists_approximation`), and of its
  multiples only one comes near without being a midpoint (`eq_or_nearMiss`).

  * `Ratio.approximate`: the approximations of a fraction;
  * `Grid.exponent` and `Grid.steps`: the coarse powers of ten, in units of
    midpoints;
  * `two_pow_mul_ten_zpow_le`: finer grids are finer than the singles.
-/

namespace GameConfig

-- powers are those of the core library, whatever algebra is imported
attribute [local instance (high)] instPowNat

/-! ## Approximations -/

section

variable {v N P : ℚ} {p q c n : ℕ}

/-- Where a number has a good approximation, its multiples by few numbers come near to a natural
    number only in the proportion of the approximation. -/
theorem cross_eq_of_near (hv : 0 < v) (hP : 0 < P)
    (happrox : q * v + N * P * |q * v - p| < P * v) (hc : c * v ≤ N)
    (hnear : P * |c * v - n| ≤ 1) : c * p = n * q := by
  have hcross : |(c * p - n * q : ℚ)| ≤ q * |c * v - n| + c * |q * v - p| := by
    calc |(c * p - n * q : ℚ)| = |q * (c * v - n) - c * (q * v - p)| := by ring_nf
      _ ≤ |(q : ℚ) * (c * v - n)| + |(c : ℚ) * (q * v - p)| := abs_sub _ _
      _ = q * |c * v - n| + c * |q * v - p| := by
        rw [abs_mul, abs_mul, Nat.abs_cast, Nat.abs_cast]
  have hsmall : P * v * |(c * p - n * q : ℚ)| < P * v * 1 := by
    calc P * v * |(c * p - n * q : ℚ)| ≤ P * v * (q * |c * v - n| + c * |q * v - p|) := by gcongr
      _ = q * v * (P * |c * v - n|) + P * |q * v - p| * (c * v) := by ring
      _ ≤ q * v * 1 + P * |q * v - p| * N := by gcongr
      _ = q * v + N * P * |q * v - p| := by ring
      _ < P * v * 1 := by rwa [mul_one]
  have hone : |((c * p - n * q : ℤ) : ℚ)| < 1 := by
    push_cast
    exact lt_of_mul_lt_mul_left hsmall (by positivity)
  have hzero : (c * p - n * q : ℤ) = 0 := Int.abs_lt_one_iff.1 (by exact_mod_cast hone)
  exact_mod_cast sub_eq_zero.1 hzero

/-- **They are multiples of the approximation then.** -/
theorem factors_of_near (hv : 0 < v) (hP : 0 < P) (hpq : p.Coprime q) (hq : 0 < q)
    (happrox : q * v + N * P * |q * v - p| < P * v) (hc : c * v ≤ N)
    (hnear : P * |c * v - n| ≤ 1) :
    ∃ t, c = t * q ∧ n = t * p ∧ P * (t * |q * v - p|) ≤ 1 := by
  have hcross := cross_eq_of_near hv hP happrox hc hnear
  obtain ⟨t, rfl⟩ : q ∣ c := hpq.symm.dvd_of_dvd_mul_right (hcross ▸ Dvd.intro_left n rfl)
  obtain rfl : t * p = n := by
    refine Nat.eq_of_mul_eq_mul_right hq ?_
    rw [← hcross]
    ring
  refine ⟨t, mul_comm _ _, rfl, ?_⟩
  have hscaled : |((q * t : ℕ) : ℚ) * v - (t * p : ℕ)| = t * |q * v - p| := by
    rw [← Nat.abs_cast t, ← abs_mul]
    push_cast
    ring_nf
  rwa [hscaled] at hnear

end

namespace Ratio

/-- How far a fraction is from another one, in the units of both denominators. -/
def defect (r : Ratio) (p q : ℕ) : ℕ := ((q * r.num : ℤ) - p * r.den).natAbs

theorem abs_value_sub {r : Ratio} (hd : 0 < r.den) (p q : ℕ) :
    |q * r.value - p| = r.defect p q / r.den := by
  have hden : (0 : ℚ) < r.den := by exact_mod_cast hd
  rw [eq_div_iff hden.ne', defect, Nat.cast_natAbs, value, ← abs_of_pos hden, ← abs_mul,
    abs_of_pos hden]
  push_cast
  congr 1
  field_simp

/-- The approximations of `a / b` from its continued fraction, up to the last one whose
    denominator is within the bound; `before` and `last` are the last two so far. -/
def approximate (bound : ℕ) : ℕ → ℕ × ℕ → ℕ × ℕ → ℕ → ℕ → ℕ × ℕ
  | 0, _, last, _, _ => last
  | fuel + 1, before, last, a, b =>
    if b = 0 then last
    else
      let next := (a / b * last.1 + before.1, a / b * last.2 + before.2)
      if bound < next.2 then last else approximate bound fuel last next b (a % b)

end Ratio

/-! ## The grids -/

namespace Grid

/-- The power of ten whose multiples are at least as far apart as those of two to the `e`. -/
def exponent (e : ℤ) : ℤ := -(-e * 30103 / 100000)

/-- How many midpoints of the exponent there are to one step of its grid. -/
def steps (e : ℤ) : Ratio := (Ratio.scaled 1 10 (exponent e)).unscale 2 (e - 1)

/-- An approximation of the grid. -/
def approximation (e : ℤ) : ℕ × ℕ :=
  Ratio.approximate (2 ^ 28) 100 (0, 1) (1, 0) (steps e).num (steps e).den

/-- The approximation is good enough for decimals that come within `2 ^ -29` of a number of 25
    bits to be multiples of it, and there are none but in one place. -/
def isolated (e : ℤ) : Bool :=
  let (p, q) := approximation e
  let defect := (steps e).defect p q
  p.Coprime q && 0 < q && q * (steps e).num + 2 ^ 25 * 2 ^ 29 * defect < 2 ^ 29 * (steps e).num &&
    (defect = 0 || (steps e).den < 2 ^ 29 * defect || 2 ^ 25 ≤ p || (e = -107 && p = 22841339))

/-- Finer grids are finer than the distance of singles, by more than doubles are apart. -/
def finer (e : ℤ) : Bool :=
  let r := (Ratio.scaled 1 10 (exponent e - 1)).unscale 2 e
  2 ^ 28 * r.num + r.den ≤ 2 ^ 28 * r.den

theorem isolated_and_finer {e : ℤ} (he : -149 ≤ e ∧ e ≤ 104) :
    isolated e = true ∧ finer e = true := by
  have hall : ∀ i < 254, isolated ((i : ℕ) - 149) = true ∧ finer ((i : ℕ) - 149) = true := by
    decide +kernel
  have hi := hall (e + 149).toNat (by omega)
  rwa [show ((e + 149).toNat : ℤ) - 149 = e by omega] at hi

/-- **Below its grid, the powers of ten are finer than the singles** at an exponent. -/
theorem two_pow_mul_ten_zpow_le {e k : ℤ} (he : -149 ≤ e ∧ e ≤ 104) (hk : k < exponent e) :
    (2 : ℚ) ^ 28 * 10 ^ k + 2 ^ e ≤ 2 ^ 28 * 2 ^ e := by
  have hfiner := (isolated_and_finer he).2
  simp only [finer, decide_eq_true_eq] at hfiner
  generalize hr : (Ratio.scaled 1 10 (exponent e - 1)).unscale 2 e = r at hfiner
  have hden : (0 : ℚ) < r.den := by
    rw [← hr]
    exact_mod_cast Ratio.den_unscale_pos (Ratio.den_scaled_pos 1 (by norm_num) _) two_pos e
  have hvalue : r.value = 10 ^ (exponent e - 1) / 2 ^ e := by
    rw [← hr, Ratio.value_unscale, Ratio.value_scaled]
    simp
  have hle : (2 : ℚ) ^ 28 * (10 ^ (exponent e - 1) / 2 ^ e) + 1 ≤ 2 ^ 28 := by
    rw [← hvalue, Ratio.value, mul_div_assoc', div_add_one hden.ne', div_le_iff₀ hden]
    exact_mod_cast hfiner
  calc (2 : ℚ) ^ 28 * 10 ^ k + 2 ^ e ≤ 2 ^ 28 * 10 ^ (exponent e - 1) + 2 ^ e := by
        gcongr
        · norm_num
        · omega
    _ = (2 ^ 28 * (10 ^ (exponent e - 1) / 2 ^ e) + 1) * 2 ^ e := by
        field_simp
    _ ≤ 2 ^ 28 * 2 ^ e := by gcongr

theorem value_steps (e : ℤ) : (steps e).value * 2 ^ (e - 1) = 10 ^ exponent e := by
  rw [steps, Ratio.value_unscale, Nat.cast_ofNat, div_mul_cancel₀ _ (by positivity),
    Ratio.value_scaled]
  simp

/-- **Every grid has a good approximation**, and its multiples are far from all midpoints, or are
    midpoints, but in one place. -/
theorem exists_approximation {e : ℤ} (he : -149 ≤ e ∧ e ≤ 104) : ∃ p q : ℕ, p.Coprime q ∧ 0 < q ∧
    q * (steps e).value + 2 ^ 25 * 2 ^ 29 * |q * (steps e).value - p| <
      2 ^ 29 * (steps e).value ∧
    (q * (steps e).value = p ∨ 1 < 2 ^ 29 * |q * (steps e).value - p| ∨ 2 ^ 25 ≤ p ∨
      (e = -107 ∧ p = 22841339)) := by
  have hcert := (isolated_and_finer he).1
  simp only [isolated, Bool.and_eq_true, Bool.or_eq_true, decide_eq_true_eq] at hcert
  generalize approximation e = pq at hcert
  obtain ⟨p, q⟩ := pq
  dsimp only at hcert
  obtain ⟨⟨⟨hpq, hq⟩, happrox⟩, hcert⟩ := hcert
  have hd : 0 < (steps e).den :=
    Ratio.den_unscale_pos (Ratio.den_scaled_pos 1 (by norm_num) _) two_pos _
  have hdefect := Ratio.abs_value_sub hd p q
  have hden : (0 : ℚ) < (steps e).den := by exact_mod_cast hd
  refine ⟨p, q, hpq, hq, ?_, ?_⟩
  · have hscaled : (q * (steps e).num + 2 ^ 25 * 2 ^ 29 * (steps e).defect p q : ℚ) <
        2 ^ 29 * (steps e).num := by exact_mod_cast happrox
    rw [hdefect, Ratio.value, mul_div_assoc', mul_div_assoc', mul_div_assoc', ← add_div]
    exact div_lt_div_of_pos_right hscaled hden
  · rw [hdefect]
    rcases hcert with ((hzero | hfar) | hlarge) | hplace
    · left
      rw [hzero, Nat.cast_zero, zero_div, abs_eq_zero, sub_eq_zero] at hdefect
      exact hdefect
    · right; left
      rw [mul_div_assoc', one_lt_div hden]
      exact_mod_cast hfar
    · exact .inr (.inr (.inl hlarge))
    · exact .inr (.inr (.inr hplace))

/-- **A decimal on the grid of an exponent that comes near to a midpoint is the midpoint**, but in
    one place. -/
theorem eq_or_nearMiss {e k : ℤ} (he : -149 ≤ e ∧ e ≤ 104) (hk : exponent e ≤ k) {c n : ℕ}
    (hn : 0 < n ∧ n < 2 ^ 25) (hc : (c : ℚ) * 10 ^ k ≤ 2 ^ 25 * 2 ^ (e - 1))
    (hnear : 2 ^ 29 * |(c : ℚ) * 10 ^ k - n * 2 ^ (e - 1)| ≤ 2 ^ (e - 1)) :
    (c : ℚ) * 10 ^ k = n * 2 ^ (e - 1) ∨ (e = -107 ∧ n = 22841339) := by
  obtain ⟨p, q, hpq, hq, happrox, hcert⟩ := exists_approximation he
  have hunit : (0 : ℚ) < 2 ^ (e - 1) := by positivity
  have hvalue : 0 < (steps e).value := by
    refine pos_of_mul_pos_left ?_ hunit.le
    rw [value_steps]
    positivity
  -- the decimal in units of midpoints
  obtain ⟨j, rfl⟩ : ∃ j : ℕ, k = exponent e + j := ⟨(k - exponent e).toNat, by omega⟩
  have hsteps : (c : ℚ) * 10 ^ (exponent e + j) =
      (c * 10 ^ j : ℕ) * (steps e).value * 2 ^ (e - 1) := by
    rw [zpow_add₀ (by norm_num), mul_assoc ((c * 10 ^ j : ℕ) : ℚ), value_steps, zpow_natCast]
    push_cast
    ring
  rw [hsteps] at hc hnear ⊢
  rw [← sub_mul, abs_mul, abs_of_pos hunit, ← mul_assoc] at hnear
  obtain ⟨t, ht, rfl, hdefect⟩ := factors_of_near hvalue (by norm_num) hpq hq happrox
    (le_of_mul_le_mul_right hc hunit)
    (le_of_mul_le_mul_right (hnear.trans_eq (one_mul _).symm) hunit)
  have hpos : 0 < t := Nat.pos_of_mul_pos_right hn.1
  rw [ht]
  rcases hcert with hexact | hfar | hlarge | ⟨rfl, rfl⟩
  · left
    push_cast
    rw [mul_assoc (t : ℚ), hexact]
  · -- no multiple of the approximation comes near
    exfalso
    have hone : (1 : ℚ) ≤ t := by exact_mod_cast hpos
    have := le_mul_of_one_le_left (abs_nonneg (q * (steps e).value - p)) hone
    linarith
  · -- all multiples have too many bits
    have := Nat.le_mul_of_pos_left p hpos
    omega
  · right
    omega

end Grid

end GameConfig
