import GameConfig.Number.Shortest
import GameConfig.Proofs.Number.Nearest

/-
  The shortest decimal is rounded to the number that it is written for.

  The interval of a rank holds exactly what is rounded to that rank
  (`Interval.contains_ofRank_iff`).  A grid that is finer than the interval has a
  point in it, and the grids that are searched for a single or a double come to one
  that is; so the search ends with a decimal inside (`nearestRank_shortest`).

  * `Interval.hit_cases`: which of the two points around the number a grid hits;
  * `Interval.hit_spec`: what it hits is inside the interval;
  * `Interval.abs_sub_le_of_hit`: on a grid finer than the interval it is the
    nearest point to the number.
-/

namespace GameConfig

-- powers are those of the core library, whatever algebra is imported
attribute [local instance (high)] instPowNat

namespace Decimal

/-- The value of a decimal. -/
def value (d : Decimal) : ℚ := d.digits * 10 ^ d.exponent

namespace Interval

variable (i : Interval) (tie : Tie) (k : ℤ)

/-- The value lies between the ends, which belong to a closed interval. -/
def Contains (x : ℚ) : Prop :=
  if i.closed then i.low * 2 ^ i.exponent ≤ x ∧ x ≤ i.high * 2 ^ i.exponent
  else i.low * 2 ^ i.exponent < x ∧ x < i.high * 2 ^ i.exponent

theorem contains_of_lt {i : Interval} {x : ℚ} (hlow : i.low * 2 ^ i.exponent < x)
    (hhigh : x < i.high * 2 ^ i.exponent) : i.Contains x := by
  unfold Contains
  split
  · exact ⟨hlow.le, hhigh.le⟩
  · exact ⟨hlow, hhigh⟩

theorem Contains.le_high {i : Interval} {x : ℚ} (h : i.Contains x) :
    x ≤ i.high * 2 ^ i.exponent := by
  unfold Contains at h
  split at h
  · exact h.2
  · exact h.2.le

/-! ## Grids

A step of the grid and a unit of the interval are natural multiples of a common unit. -/

/-- The step of the grid. -/
def step : ℕ := (Ratio.scaled 1 10 k).num * (Ratio.scaled 1 2 i.exponent).den

/-- The unit of the interval. -/
def unit : ℕ := (Ratio.scaled 1 2 i.exponent).num * (Ratio.scaled 1 10 k).den

/-- A point of the grid is in the interval, and is not zero. -/
def inside (c : ℕ) : Bool :=
  0 < c && (if i.closed then i.low * i.unit k ≤ c * i.step k && c * i.step k ≤ i.high * i.unit k
    else i.low * i.unit k < c * i.step k && c * i.step k < i.high * i.unit k)

/-- The last point of the grid that is not above the number. -/
def below : ℕ := i.value * i.unit k / i.step k

theorem hit_eq : i.hit tie k =
    match i.inside k (i.below k), i.inside k (i.below k + 1) with
    | false, false => none
    | true, false => some (i.below k)
    | false, true => some (i.below k + 1)
    | true, true =>
      if 2 * (i.value * i.unit k % i.step k) < i.step k then some (i.below k)
      else if i.step k < 2 * (i.value * i.unit k % i.step k) then some (i.below k + 1)
      else match tie with
        | .even => some (if i.below k % 2 == 0 then i.below k else i.below k + 1)
        | .up => some (i.below k + 1) :=
  rfl

/-- Both are multiples of one unit. -/
theorem exists_unit : ∃ d : ℚ, 0 < d ∧ (i.step k : ℚ) = 10 ^ k * d ∧
    (i.unit k : ℚ) = 2 ^ i.exponent * d := by
  have hten := Ratio.value_scaled 1 10 k
  have htwo := Ratio.value_scaled 1 2 i.exponent
  have hd₁ : (0 : ℚ) < (Ratio.scaled 1 10 k).den := by
    exact_mod_cast Ratio.den_scaled_pos 1 (by norm_num) k
  have hd₂ : (0 : ℚ) < (Ratio.scaled 1 2 i.exponent).den := by
    exact_mod_cast Ratio.den_scaled_pos 1 (by norm_num) i.exponent
  simp only [Ratio.value, Nat.cast_one, one_mul, Nat.cast_ofNat] at hten htwo
  refine ⟨(Ratio.scaled 1 10 k).den * (Ratio.scaled 1 2 i.exponent).den, by positivity, ?_, ?_⟩
  · rw [← hten, step]
    push_cast
    field_simp
  · rw [← htwo, unit]
    push_cast
    field_simp

theorem unit_le_step_iff (a c : ℕ) :
    a * i.unit k ≤ c * i.step k ↔ (a : ℚ) * 2 ^ i.exponent ≤ c * 10 ^ k := by
  obtain ⟨d, hd, hstep, hunit⟩ := i.exists_unit k
  rw [← Nat.cast_le (α := ℚ), Nat.cast_mul, Nat.cast_mul, hstep, hunit, ← mul_assoc, ← mul_assoc,
    mul_le_mul_iff_left₀ hd]

theorem step_le_unit_iff (a c : ℕ) :
    c * i.step k ≤ a * i.unit k ↔ (c : ℚ) * 10 ^ k ≤ a * 2 ^ i.exponent := by
  obtain ⟨d, hd, hstep, hunit⟩ := i.exists_unit k
  rw [← Nat.cast_le (α := ℚ), Nat.cast_mul, Nat.cast_mul, hstep, hunit, ← mul_assoc, ← mul_assoc,
    mul_le_mul_iff_left₀ hd]

theorem unit_lt_step_iff (a c : ℕ) :
    a * i.unit k < c * i.step k ↔ (a : ℚ) * 2 ^ i.exponent < c * 10 ^ k := by
  rw [← not_le, step_le_unit_iff, not_le]

theorem step_lt_unit_iff (a c : ℕ) :
    c * i.step k < a * i.unit k ↔ (c : ℚ) * 10 ^ k < a * 2 ^ i.exponent := by
  rw [← not_le, unit_le_step_iff, not_le]

theorem step_pos : 0 < i.step k := by
  obtain ⟨d, hd, hstep, -⟩ := i.exists_unit k
  have : (0 : ℚ) < i.step k := by
    rw [hstep]
    positivity
  exact_mod_cast this

theorem inside_iff (c : ℕ) : i.inside k c = true ↔ 0 < c ∧ i.Contains (c * 10 ^ k) := by
  unfold inside Contains
  rw [Bool.and_eq_true, decide_eq_true_eq]
  split
  · rw [Bool.and_eq_true, decide_eq_true_eq, decide_eq_true_eq, unit_le_step_iff,
      step_le_unit_iff]
  · rw [Bool.and_eq_true, decide_eq_true_eq, decide_eq_true_eq, unit_lt_step_iff,
      step_lt_unit_iff]

/-- The number is between two points of the grid. -/
theorem below_le : (i.below k : ℚ) * 10 ^ k ≤ i.value * 2 ^ i.exponent ∧
    i.value * 2 ^ i.exponent < ((i.below k : ℚ) + 1) * 10 ^ k := by
  constructor
  · rw [← step_le_unit_iff]
    exact Nat.div_mul_le_self _ _
  · have hlt : i.value * i.unit k < (i.below k + 1) * i.step k := by
      rw [mul_comm (i.below k + 1)]
      exact Nat.lt_mul_div_succ _ (i.step_pos k)
    rw [unit_lt_step_iff] at hlt
    exact_mod_cast hlt

/-- How far the number is above that point, compared with half a step. -/
theorem rest_iff :
    (2 * (i.value * i.unit k % i.step k) < i.step k ↔
      2 * ((i.value : ℚ) * 2 ^ i.exponent - i.below k * 10 ^ k) < 10 ^ k) ∧
    (i.step k < 2 * (i.value * i.unit k % i.step k) ↔
      (10 : ℚ) ^ k < 2 * (i.value * 2 ^ i.exponent - i.below k * 10 ^ k)) := by
  obtain ⟨d, hd, hstep, hunit⟩ := i.exists_unit k
  have hrest : ((i.value * i.unit k % i.step k : ℕ) : ℚ) =
      ((i.value : ℚ) * 2 ^ i.exponent - i.below k * 10 ^ k) * d := by
    have hsum : ((i.below k * i.step k + i.value * i.unit k % i.step k : ℕ) : ℚ) =
        (i.value * i.unit k : ℕ) := congrArg _ (Nat.div_add_mod' _ _)
    rw [Nat.cast_add, Nat.cast_mul, Nat.cast_mul, hstep, hunit] at hsum
    linarith
  constructor
  · rw [← Nat.cast_lt (α := ℚ), Nat.cast_mul, hrest, hstep, ← mul_assoc, mul_lt_mul_iff_left₀ hd,
      Nat.cast_ofNat]
  · rw [← Nat.cast_lt (α := ℚ), Nat.cast_mul, hrest, hstep, ← mul_assoc, mul_lt_mul_iff_left₀ hd,
      Nat.cast_ofNat]

variable {i tie k}

/-- **A hit is one of the two points around the number**: it is inside, and the other one is not or
    is no nearer. -/
theorem hit_cases {c : ℕ} (h : i.hit tie k = some c) :
    (c = i.below k ∧ i.inside k (i.below k) = true ∧
      (i.inside k (i.below k + 1) = false ∨
        2 * ((i.value : ℚ) * 2 ^ i.exponent - i.below k * 10 ^ k) ≤ 10 ^ k)) ∨
    (c = i.below k + 1 ∧ i.inside k (i.below k + 1) = true ∧
      (i.inside k (i.below k) = false ∨
        (10 : ℚ) ^ k ≤ 2 * (i.value * 2 ^ i.exponent - i.below k * 10 ^ k))) := by
  obtain ⟨hless, hmore⟩ := i.rest_iff k
  rw [hit_eq] at h
  split at h
  case h_1 => cases h
  case h_2 hq hq' => exact .inl ⟨(Option.some.inj h).symm, hq, .inl hq'⟩
  case h_3 hq hq' => exact .inr ⟨(Option.some.inj h).symm, hq', .inl hq⟩
  case h_4 hq hq' =>
  split at h
  case isTrue hnear => exact .inl ⟨(Option.some.inj h).symm, hq, .inr (hless.1 hnear).le⟩
  case isFalse hnear =>
  split at h
  case isTrue hfar => exact .inr ⟨(Option.some.inj h).symm, hq', .inr (hmore.1 hfar).le⟩
  case isFalse hfar =>
  -- halfway between them it may be either
  rw [hless, not_lt] at hnear
  rw [hmore, not_lt] at hfar
  cases tie with
  | even =>
    dsimp only at h
    split at h
    · exact .inl ⟨(Option.some.inj h).symm, hq, .inr hfar⟩
    · exact .inr ⟨(Option.some.inj h).symm, hq', .inr hnear⟩
  | up => exact .inr ⟨(Option.some.inj h).symm, hq', .inr hnear⟩

/-- **What a grid hits is inside the interval**, and not zero. -/
theorem hit_spec {c : ℕ} (h : i.hit tie k = some c) : 0 < c ∧ i.Contains (c * 10 ^ k) := by
  rw [← inside_iff]
  rcases hit_cases h with ⟨rfl, hin, -⟩ | ⟨rfl, hin, -⟩
  · exact hin
  · exact hin

/-- A grid that is finer than the upper part of the interval hits it. -/
theorem isSome_hit (hlow : i.low ≤ i.value)
    (h : (i.value : ℚ) * 2 ^ i.exponent + 10 ^ k < i.high * 2 ^ i.exponent) :
    (i.hit tie k).isSome = true := by
  obtain ⟨hle, hlt⟩ := i.below_le k
  have hbelow : (i.low : ℚ) * 2 ^ i.exponent ≤ i.value * 2 ^ i.exponent := by gcongr
  have hin : i.inside k (i.below k + 1) = true := by
    rw [inside_iff]
    refine ⟨Nat.succ_pos _, ?_⟩
    have hlow' : (i.low : ℚ) * 2 ^ i.exponent < ((i.below k + 1 : ℕ) : ℚ) * 10 ^ k := by
      push_cast
      linarith
    have hhigh' : ((i.below k + 1 : ℕ) : ℚ) * 10 ^ k < i.high * 2 ^ i.exponent := by
      push_cast
      linarith
    exact contains_of_lt hlow' hhigh'
  rw [hit_eq, hin]
  split
  case h_1 h => cases h
  case h_2 h => cases h
  case h_3 => rfl
  case h_4 =>
    split
    · rfl
    split
    · rfl
    cases tie <;> rfl

section

variable {w : ℚ} (hlow : (i.low : ℚ) * 2 ^ i.exponent = i.value * 2 ^ i.exponent - w)
  (hhigh : (i.high : ℚ) * 2 ^ i.exponent = i.value * 2 ^ i.exponent + w)

include hlow hhigh

/-- The point below the number is far from it if it is not inside. -/
theorem below_le_of_not_inside (hw : 0 < w) (h : i.inside k (i.below k) = false) :
    (i.below k : ℚ) * 10 ^ k ≤ i.value * 2 ^ i.exponent - w := by
  obtain ⟨hle, -⟩ := i.below_le k
  by_contra hnear
  have hlow_nonneg : (0 : ℚ) ≤ i.low * 2 ^ i.exponent := by positivity
  have hin : i.inside k (i.below k) = true := by
    rw [inside_iff]
    refine ⟨Nat.pos_of_ne_zero fun hzero => hnear ?_, contains_of_lt (by linarith) (by linarith)⟩
    rw [hzero, Nat.cast_zero, zero_mul, ← hlow]
    exact hlow_nonneg
  rw [h] at hin
  cases hin

/-- So is the point above it. -/
theorem le_above_of_not_inside (h : i.inside k (i.below k + 1) = false) :
    (i.value : ℚ) * 2 ^ i.exponent + w ≤ (i.below k + 1) * 10 ^ k := by
  obtain ⟨-, hlt⟩ := i.below_le k
  by_contra hnear
  have hin : i.inside k (i.below k + 1) = true := by
    rw [inside_iff]
    refine ⟨Nat.succ_pos _, contains_of_lt ?_ ?_⟩
    all_goals
      push_cast
      linarith
  rw [h] at hin
  cases hin

/-- **On a grid that is finer than the interval, the nearest point to the number is hit.** -/
theorem abs_sub_le_of_hit {c : ℕ} (h : i.hit tie k = some c) (hk : (10 : ℚ) ^ k ≤ 2 * w) :
    |(c : ℚ) * 10 ^ k - i.value * 2 ^ i.exponent| ≤ 10 ^ k / 2 := by
  obtain ⟨hle, hlt⟩ := i.below_le k
  have hstep : (0 : ℚ) < 10 ^ k := by positivity
  rw [abs_le]
  rcases hit_cases h with ⟨rfl, -, hout | hnear⟩ | ⟨rfl, -, hout | hnear⟩
  · have := le_above_of_not_inside hlow hhigh hout
    constructor <;> linarith
  · constructor <;> linarith
  · have := below_le_of_not_inside hlow hhigh (by linarith) hout
    push_cast
    constructor <;> linarith
  · push_cast
    constructor <;> linarith

end

/-! ## The search -/

/-- The search ends with the first hit, if there is one within reach. -/
theorem hit_search {fuel : ℕ} (h : ∃ j < fuel, (i.hit tie (k - j)).isSome = true) :
    i.hit tie (i.search tie fuel k).exponent = some (i.search tie fuel k).digits := by
  induction fuel generalizing k with
  | zero =>
    obtain ⟨j, hj, -⟩ := h
    cases hj
  | succ fuel ih =>
    rw [search]
    cases hk : i.hit tie k with
    | some c => exact hk
    | none =>
      refine ih ?_
      obtain ⟨j, hj, hsome⟩ := h
      cases j with
      | zero => simp [hk] at hsome
      | succ j =>
        refine ⟨j, Nat.lt_of_succ_lt_succ hj, ?_⟩
        rwa [sub_sub, add_comm 1, ← Nat.cast_succ]

/-! ## The interval of a rank -/

variable {l : Layout}

/-- The ends of the interval of a rank are the midpoints around it. -/
theorem ends_ofRank (rank : ℕ) :
    ((ofRank l (rank + 1)).low : ℚ) * 2 ^ (ofRank l (rank + 1)).exponent = l.midpoint rank ∧
    ((ofRank l (rank + 1)).high : ℚ) * 2 ^ (ofRank l (rank + 1)).exponent =
      l.midpoint (rank + 1) := by
  have hquarter : (2 : ℚ) ^ (l.exponent (rank + 1) - 2) = 2 ^ l.exponent (rank + 1) / 4 := by
    rw [zpow_sub₀ two_ne_zero]
    norm_num
  unfold ofRank Layout.midpoint
  dsimp only
  rw [hquarter]
  constructor
  · rcases l.significand_exponent_succ rank with ⟨hs, he⟩ | ⟨hfull, hs, he⟩
    · -- no octave begins
      have hnarrow : (l.significand (rank + 1) == 2 ^ l.fractionBits &&
          decide (l.leastExponent < l.exponent (rank + 1))) = false := by
        rw [Bool.and_eq_false_iff, decide_eq_false_iff_not, beq_eq_false_iff_ne, or_iff_not_imp_right,
          not_not]
        intro h
        have := l.two_pow_le_significand (he ▸ h)
        omega
      rw [hnarrow, if_neg Bool.false_ne_true, hs, he, Nat.cast_sub (by omega)]
      push_cast
      ring
    · have hnarrow : (l.significand (rank + 1) == 2 ^ l.fractionBits &&
          decide (l.leastExponent < l.exponent (rank + 1))) = true := by
        rw [Bool.and_eq_true, beq_iff_eq, decide_eq_true_eq]
        have := l.leastExponent_le rank
        omega
      have hfull' : (l.significand rank : ℚ) = 2 * 2 ^ l.fractionBits - 1 := by
        rw [eq_sub_iff_add_eq, ← pow_succ']
        exact_mod_cast hfull
      have hpos := Nat.two_pow_pos l.fractionBits
      rw [hnarrow, if_pos rfl, hs, he, hfull', Nat.cast_sub (by omega), zpow_add_one₀ two_ne_zero]
      push_cast
      ring
  · push_cast
    ring

/-- Between them is the magnitude of the rank. -/
theorem value_ofRank (rank : ℕ) : ((ofRank l rank).value : ℚ) * 2 ^ (ofRank l rank).exponent =
    (Binary.ratioOfRank l rank).value := by
  rw [Binary.value_ratioOfRank]
  simp only [ofRank]
  rw [zpow_sub₀ two_ne_zero]
  push_cast
  ring

theorem closed_ofRank_iff (rank : ℕ) :
    (ofRank l rank).closed = true ↔ l.significand rank % 2 = 0 :=
  beq_iff_eq

/-- **The interval of a rank holds exactly what is rounded to the rank.** -/
theorem contains_ofRank_iff (hl : 0 < l.fractionBits) {r : Ratio} (hd : 0 < r.den) (rank : ℕ) :
    (ofRank l (rank + 1)).Contains r.value ↔ Binary.nearestRank l r = rank + 1 := by
  obtain ⟨hlow, hhigh⟩ := ends_ofRank (l := l) rank
  have heven := l.significand_succ_even_iff hl rank
  rw [le_antisymm_iff, Binary.nearestRank_le_iff hd, Binary.le_nearestRank_iff hd, Contains, hlow,
    hhigh, if_congr (closed_ofRank_iff _) rfl rfl]
  split
  case isTrue h =>
    rw [le_iff_lt_or_eq, le_iff_lt_or_eq (a := r.value), and_comm]
    simp only [h, heven.1 h, and_true, eq_comm]
  case isFalse h =>
    rw [and_comm]
    have hodd : ¬ l.significand rank % 2 = 1 := fun h' => h (heven.2 h')
    simp only [h, hodd, and_false, or_false]

end Interval

/-! ## Singles and doubles -/

/-- The exponents and significands of finite singles. -/
theorem single_bounds {rank : ℕ} (h : rank < Layout.single.top) :
    -149 ≤ Layout.single.exponent rank ∧ Layout.single.exponent rank ≤ 104 ∧
      Layout.single.significand rank < 2 ^ 24 := by
  have htop : Layout.single.top = 255 * 2 ^ 23 := by decide
  have hleast : Layout.single.leastExponent = -149 := by decide
  refine ⟨Layout.single.leastExponent_le rank, ?_, Layout.single.significand_lt rank⟩
  have hoctave : rank / 2 ^ Layout.single.fractionBits ≤ 254 := by
    rw [htop] at h
    show rank / 2 ^ 23 ≤ 254
    omega
  unfold Layout.exponent
  split <;> omega

/-- The exponents and significands of finite doubles. -/
theorem double_bounds {rank : ℕ} (h : rank < Layout.double.top) :
    -1074 ≤ Layout.double.exponent rank ∧ Layout.double.exponent rank ≤ 971 ∧
      Layout.double.significand rank < 2 ^ 53 := by
  have htop : Layout.double.top = 2047 * 2 ^ 52 := by decide
  have hleast : Layout.double.leastExponent = -1074 := by decide
  refine ⟨Layout.double.leastExponent_le rank, ?_, Layout.double.significand_lt rank⟩
  have hoctave : rank / 2 ^ Layout.double.fractionBits ≤ 2046 := by
    rw [htop] at h
    show rank / 2 ^ 52 ≤ 2046
    omega
  unfold Layout.exponent
  split <;> omega

/-- Powers of ten below powers of two: ten has more than three and three tenths bits, and less than
    three and a third. -/
theorem ten_zpow_le_two_zpow {k n : ℤ} (hpos : 10 * k ≤ 3 * n) (hneg : 33 * k ≤ 10 * n) :
    (10 : ℚ) ^ k ≤ 2 ^ n := by
  rcases le_or_gt 0 k with hk | hk
  · obtain ⟨a, rfl⟩ := Int.eq_ofNat_of_zero_le hk
    obtain ⟨b, rfl⟩ := Int.eq_ofNat_of_zero_le (show 0 ≤ n by omega)
    simp only [zpow_natCast]
    refine le_of_pow_le_pow_left₀ three_ne_zero (by positivity) ?_
    calc ((10 : ℚ) ^ a) ^ 3 = (10 ^ 3) ^ a := pow_right_comm _ _ _
      _ ≤ (2 ^ 10) ^ a := pow_le_pow_left₀ (by norm_num) (by norm_num) a
      _ = 2 ^ (10 * a) := (pow_mul _ _ _).symm
      _ ≤ 2 ^ (3 * b) := pow_le_pow_right₀ one_le_two (by omega)
      _ = (2 ^ b) ^ 3 := by rw [mul_comm, pow_mul]
  · obtain ⟨a, ha⟩ := Int.eq_ofNat_of_zero_le (show 0 ≤ -k by omega)
    rw [show k = -(a : ℤ) by omega, zpow_neg, inv_le_comm₀ (by positivity) (by positivity),
      ← zpow_neg]
    rcases le_or_gt 0 n with hn | hn
    · calc (2 : ℚ) ^ (-n) ≤ 2 ^ (0 : ℤ) := zpow_le_zpow_right₀ one_le_two (by omega)
        _ ≤ 10 ^ (a : ℤ) := one_le_zpow₀ (by norm_num) (by omega)
    obtain ⟨b, hb⟩ := Int.eq_ofNat_of_zero_le (show 0 ≤ -n by omega)
    rw [hb]
    simp only [zpow_natCast]
    refine le_of_pow_le_pow_left₀ (show 10 ≠ 0 by norm_num) (by positivity) ?_
    calc ((2 : ℚ) ^ b) ^ 10 = 2 ^ (b * 10) := (pow_mul _ _ _).symm
      _ ≤ 2 ^ (33 * a) := pow_le_pow_right₀ one_le_two (by omega)
      _ = (2 ^ 33) ^ a := pow_mul _ _ _
      _ ≤ (10 ^ 10) ^ a := pow_le_pow_left₀ (by norm_num) (by norm_num) a
      _ = (10 ^ a) ^ 10 := pow_right_comm _ _ _

/-- Powers of ten above powers of two. -/
theorem two_zpow_le_ten_zpow {k n : ℤ} (hpos : 3 * n ≤ 10 * k) (hneg : 10 * n ≤ 33 * k) :
    (2 : ℚ) ^ n ≤ 10 ^ k := by
  have h : (10 : ℚ) ^ (-k) ≤ 2 ^ (-n) := ten_zpow_le_two_zpow (by omega) (by omega)
  rwa [zpow_neg, zpow_neg, inv_le_inv₀ (by positivity) (by positivity)] at h

/-- **The search for a single or a double ends with a hit.** -/
theorem hit_shortest {l : Layout} (hl : l = .single ∨ l = .double) (tie : Tie) {rank : ℕ}
    (hpos : 0 < rank) (h : rank < l.top) :
    (Interval.ofRank l rank).hit tie (shortest l tie rank).exponent =
      some (shortest l tie rank).digits := by
  obtain ⟨hexp₁, hexp₂, hsig⟩ : -1074 ≤ l.exponent rank ∧ l.exponent rank ≤ 971 ∧
      l.significand rank < 2 ^ 53 := by
    rcases hl with rfl | rfl
    · obtain ⟨hexp₁, hexp₂, hsig⟩ := single_bounds h
      exact ⟨by omega, by omega, by omega⟩
    · exact double_bounds h
  rw [shortest, if_neg hpos.ne']
  refine Interval.hit_search ⟨23, by norm_num, Interval.isSome_hit ?_ ?_⟩
  · unfold Interval.ofRank
    dsimp only
    split <;> omega
  · -- the last grid within reach is finer than half the distance of the numbers
    unfold Interval.ofRank
    dsimp only
    generalize l.significand rank = m at hsig
    generalize l.exponent rank = e at hexp₁ hexp₂
    have hlog : (4 * m + 2).log2 ≤ 54 := by
      have := (Nat.log2_lt (n := 4 * m + 2) (k := 55) (by omega)).2 (by omega)
      omega
    generalize (4 * m + 2).log2 = g at hlog
    generalize hk : (e - 2 + ((g + 1 : ℕ) : ℤ)) * 30103 / 100000 + 1 - (23 : ℕ) = k
    have hfine : (10 : ℚ) ^ k < 2 ^ (e - 1) := by
      refine (ten_zpow_le_two_zpow (n := e - 2) ?_ ?_).trans_lt
        (zpow_lt_zpow_right₀ one_lt_two (by omega))
      · omega
      · omega
    rw [show e - 1 = e - 2 + 1 by ring, zpow_add_one₀ two_ne_zero] at hfine
    push_cast
    linarith

theorem value_shortest_zero (tie : Tie) {l : Layout} : (shortest l tie 0).value = 0 := by
  simp [shortest, value]

/-- **The shortest decimal of a single or a double is rounded to it.** -/
theorem nearestRank_shortest {l : Layout} (hl : l = .single ∨ l = .double) (tie : Tie) {rank : ℕ}
    (h : rank < l.top) {r : Ratio} (hd : 0 < r.den) (hr : r.value = (shortest l tie rank).value) :
    Binary.nearestRank l r = rank := by
  cases rank with
  | zero => exact Binary.nearestRank_of_value_eq_zero hd (hr.trans (value_shortest_zero tie))
  | succ rank =>
    obtain ⟨-, hin⟩ := Interval.hit_spec (hit_shortest hl tie rank.succ_pos h)
    have hbits : 0 < l.fractionBits := by rcases hl with rfl | rfl <;> decide
    rw [← Interval.contains_ofRank_iff hbits hd, hr]
    exact hin

end Decimal

end GameConfig
