import GameConfig.Proofs.Number.Order
import Mathlib.Data.Rat.Floor

/-
  Doubles and whole numbers.

  A finite number is nearest to its own value (`Binary.toRat`), so numbers that a layout has
  compare as their values do.  Integers up to the power of two where doubles stop
  having all of them are such numbers, and any other integer, however it is
  rounded, stays on its side of them (`Binary.ofInt_lt_ofInt_iff`).

  So nothing is lost where a double is rounded to an integer and compared with a
  natural number below that power:

  * `Binary.floor_of_isFinite`, `Binary.ceil_of_isFinite`: rounding down and up is that
    of the value;
  * `Binary.toNat_le_iff`: the natural part by comparison;
  * `Binary.toNat_ceil_le_iff`, `Binary.toNat_floor_plus_le_iff`: the least natural number that
    is not below a double, or above it;
  * `Binary.lt_toNat_floor_iff`, `Binary.lt_toNat_ceil_plus_iff`: the greatest one that is not
    above a double, or below it.
-/

namespace GameConfig

-- powers are those of the core library, whatever algebra is imported
attribute [local instance (high)] instPowNat

namespace Ratio

theorem cast_floor (r : Ratio) : (r.floor : ℤ) = ⌊r.value⌋ :=
  (Rat.floor_natCast_div_natCast r.num r.den).symm

theorem cast_ceil {r : Ratio} (hd : 0 < r.den) : (r.ceil : ℤ) = ⌈r.value⌉ := by
  have hden : (0 : ℚ) < r.den := by exact_mod_cast hd
  have hlow : r.ceil * r.den < r.num + r.den := by
    have := Nat.div_mul_le_self (r.num + (r.den - 1)) r.den
    unfold ceil
    omega
  have hhigh : r.num ≤ r.ceil * r.den := by
    have := Nat.lt_div_mul_add (a := r.num + (r.den - 1)) hd
    unfold ceil
    omega
  refine (Int.ceil_eq_iff.2 ⟨?_, ?_⟩).symm
  · rw [Int.cast_natCast, value, sub_lt_iff_lt_add, div_add_one hden.ne', lt_div_iff₀ hden]
    exact_mod_cast hlow
  · rw [Int.cast_natCast, value, div_le_iff₀ hden]
    exact_mod_cast hhigh

end Ratio

/-! ## Values -/

namespace Binary

variable {l : Layout} {x y : Binary l} {a b : ℚ}

/-- The value of a finite number; zero for the others. -/
def toRat (x : Binary l) : ℚ := if x.isNegative then -x.magnitude.value else x.magnitude.value

/-- What is not finite is no number or is infinite. -/
theorem finite_or (x : Binary l) :
    x.isFinite = true ∨ x = .nan ∨ ∃ negative, x = infinity negative := by
  cases x with
  | nan => exact .inr (.inl rfl)
  | ranked negative rank =>
    rcases (Nat.le_of_lt_succ rank.isLt).lt_or_eq with hlt | htop
    · exact .inl (decide_eq_true hlt)
    · refine .inr (.inr ⟨negative, ?_⟩)
      simp [infinity, ofRank, ← htop]

/-- A finite number is the one nearest to its magnitude. -/
theorem ofRatio_magnitude (hx : x.isFinite = true) : ofRatio x.isNegative x.magnitude = x := by
  cases x with
  | nan => cases hx
  | ranked negative rank =>
    have hrank : rank.val < l.top := by simpa [isFinite] using hx
    have hmin : min rank.val l.top = rank.val := by omega
    simp [isNegative, magnitude, hrank, ofRatio, nearestRank_ratioOfRank, ofRank, hmin]

/-- **A finite number is the one nearest to its value.** -/
theorem rounds_toRat (hx : x.isFinite = true) : x.Rounds x.toRat := by
  have h := rounds_ofRatio (l := l) x.isNegative (den_magnitude_pos x)
  rwa [ofRatio_magnitude hx] at h

theorem has_toRat (hx : x.isFinite = true) : l.Has x.toRat := by
  cases x with
  | nan => cases hx
  | ranked negative rank =>
    have hrank : rank.val < l.top := by simpa [isFinite] using hx
    have hnonneg := (ratioOfRank l rank).value_nonneg
    refine ⟨rank, hrank, ?_⟩
    cases negative <;> simp [toRat, isNegative, magnitude, hrank, abs_of_nonneg hnonneg]

/-- Numbers that a layout has compare as what they were rounded from. -/
theorem Rounds.lt_iff_of_has (hx : x.Rounds a) (hy : y.Rounds b) (ha : l.Has a) (hb : l.Has b) :
    x.lt y = true ↔ a < b := by
  rw [hx.lt_iff hy]
  exact ⟨And.left, fun h => ⟨h, fun hm => h.ne (ha.eq_of_merges hb hm)⟩⟩

theorem Rounds.le_iff_of_has (hx : x.Rounds a) (hy : y.Rounds b) (ha : l.Has a) (hb : l.Has b) :
    x.le y = true ↔ a ≤ b := by
  rw [hx.le_iff hy]
  exact ⟨fun h => h.elim id fun hm => (ha.eq_of_merges hb hm).le, .inl⟩

/-- Infinity is beyond all numbers of a layout. -/
theorem Rounds.compare_infinity (hy : y.Rounds a) (ha : l.Has a) (negative : Bool) :
    ((infinity negative).lt y = negative ∧ (infinity negative).le y = negative) ∧
      y.lt (infinity negative) = !negative ∧ y.le (infinity negative) = !negative := by
  obtain ⟨rank, hrank, hvalue⟩ := ha
  have hkey := Layout.natAbs_nearestKey hrank hvalue
  have hinfinity : (infinity negative : Binary l).key =
      some (if negative then -(l.top : ℤ) else l.top) := by simp [infinity, ofRank, key]
  rw [Rounds] at hy
  cases negative <;> simp [lt, le, hy, hinfinity] <;> omega

end Binary

/-! ## Integers -/

namespace Layout

/-- Doubles have all integers up to the first power of two that they have no next integer of. -/
theorem has_intCast_of_le {i : ℤ} (hi : i.natAbs ≤ 2 ^ 53) : double.Has i := by
  rcases hi.lt_or_eq with hlt | heq
  · exact has_intCast hlt
  · refine ⟨1076 * 2 ^ 52, by decide, ?_⟩
    have hsig : double.significand (1076 * 2 ^ 52) = 2 ^ 52 := by decide
    have hexp : double.exponent (1076 * 2 ^ 52) = 1 := by decide
    rw [Binary.value_ratioOfRank, hsig, hexp, ← Int.cast_abs, ← Int.natCast_natAbs, heq]
    norm_num

/-- Rounding an integer leaves it below those that doubles have. -/
theorem not_merges_of_lt {k a : ℤ} (hlow : -2 ^ 53 < a) (hhigh : a ≤ 2 ^ 53) (h : k < a) :
    ¬ double.Merges k a := by
  intro hm
  have hmono : double.nearestKey k ≤ double.nearestKey (a - 1 : ℤ) :=
    nearestKey_mono (by exact_mod_cast Int.le_sub_one_of_lt h)
  have hstep : double.nearestKey (a - 1 : ℤ) < double.nearestKey a := by
    refine nearestKey_lt_iff.2 ⟨by exact_mod_cast sub_one_lt a, fun hm' => ?_⟩
    have heq := (has_intCast_of_le (by omega)).eq_of_merges (has_intCast_of_le (by omega)) hm'
    have : a - 1 = a := Int.cast_injective heq
    omega
  rw [Merges] at hm
  omega

end Layout

namespace Binary

variable {x : Double} {k a : ℤ}

/-- **Rounded integers compare as integers** with those that doubles have. -/
theorem ofInt_lt_ofInt_iff (hlow : -2 ^ 53 < a) (hhigh : a ≤ 2 ^ 53) :
    (ofInt k : Double).lt (ofInt a) = true ↔ k < a := by
  rw [(rounds_ofInt k).lt_iff (rounds_ofInt a), Int.cast_lt]
  exact and_iff_left_of_imp (Layout.not_merges_of_lt hlow hhigh)

theorem lt_ofInt_iff (hx : x.isFinite = true) (ha : a.natAbs ≤ 2 ^ 53) :
    x.lt (ofInt a) = true ↔ x.toRat < a :=
  (rounds_toRat hx).lt_iff_of_has (rounds_ofInt a) (has_toRat hx) (Layout.has_intCast_of_le ha)

theorem le_ofInt_iff (hx : x.isFinite = true) (ha : a.natAbs ≤ 2 ^ 53) :
    x.le (ofInt a) = true ↔ x.toRat ≤ a :=
  (rounds_toRat hx).le_iff_of_has (rounds_ofInt a) (has_toRat hx) (Layout.has_intCast_of_le ha)

theorem ofInt_lt_iff (hx : x.isFinite = true) (ha : a.natAbs ≤ 2 ^ 53) :
    (ofInt a).lt x = true ↔ a < x.toRat :=
  (rounds_ofInt a).lt_iff_of_has (rounds_toRat hx) (Layout.has_intCast_of_le ha) (has_toRat hx)

theorem ofInt_le_iff (hx : x.isFinite = true) (ha : a.natAbs ≤ 2 ^ 53) :
    (ofInt a).le x = true ↔ a ≤ x.toRat :=
  (rounds_ofInt a).le_iff_of_has (rounds_toRat hx) (Layout.has_intCast_of_le ha) (has_toRat hx)

/-! ## Rounding to integers -/

theorem floor_of_isFinite (hx : x.isFinite = true) : x.floor = ofInt ⌊x.toRat⌋ := by
  rw [floor, if_pos hx]
  dsimp only
  congr 1
  unfold toRat
  split
  · rw [Int.floor_neg, Ratio.cast_ceil (den_magnitude_pos x)]
  · exact Ratio.cast_floor _

theorem ceil_of_isFinite (hx : x.isFinite = true) : x.ceil = ofInt ⌈x.toRat⌉ := by
  rw [ceil, if_pos hx]
  dsimp only
  congr 1
  unfold toRat
  split
  · rw [Int.ceil_neg, Ratio.cast_floor]
  · exact Ratio.cast_ceil (den_magnitude_pos x)

/-- Infinity is not rounded. -/
theorem rounding_infinity (negative : Bool) (i : ℤ) :
    (infinity negative : Double).floor = infinity negative ∧
      (infinity negative : Double).ceil = infinity negative ∧
      (infinity negative : Double).plus i = infinity negative := by
  have hfin : (infinity negative : Double).isFinite = false := by simp [infinity, ofRank, isFinite]
  simp [floor, ceil, plus, hfin]

/-- The whole part, cut off towards zero. -/
def trunc (x : Binary l) : ℤ := if x.isNegative then -(x.magnitude.floor : ℤ) else x.magnitude.floor

theorem plus_of_isFinite (hx : x.isFinite = true) (i : ℤ) : x.plus i = ofInt (x.trunc + i) :=
  if_pos hx

/-- Cutting off towards zero stays below what is above zero. -/
theorem trunc_lt_iff (ha : 0 < a ∨ (a = 0 ∧ x.isNegative = false)) :
    x.trunc < a ↔ x.toRat < a := by
  have hnonneg := x.magnitude.value_nonneg
  have hcut : (x.magnitude.floor : ℤ) < a ↔ x.magnitude.value < a := by
    rw [Ratio.cast_floor, Int.floor_lt]
  unfold trunc toRat
  split
  · rename_i hneg
    have hpos : 0 < a := by
      rcases ha with h | ⟨-, h⟩
      · exact h
      · rw [hneg] at h
        cases h
    have hpos' : (0 : ℚ) < a := by exact_mod_cast hpos
    exact iff_of_true (by omega) (by linarith)
  · exact hcut

/-! ## Natural parts -/

variable {limit n : ℕ}

theorem toNat_infinity (negative : Bool) :
    (infinity negative : Double).toNat limit = if negative then 0 else limit := by
  cases negative <;> simp [toNat, isNaN, infinity, ofRank, isNegative, isFinite]

theorem toNat_infinity_le_iff (hlimit : n < limit) (negative : Bool) :
    (infinity negative : Double).toNat limit ≤ n ↔ negative = true := by
  rw [toNat_infinity]
  cases negative with
  | true => simp
  | false => simpa using hlimit

/-- **A natural part is at most a natural number if the double is below the next one.** -/
theorem toNat_le_iff (hx : x.isNaN = false) (hn : n < 2 ^ 53) (hlimit : n < limit) :
    x.toNat limit ≤ n ↔ x.lt (ofInt (n + 1)) = true := by
  have hnext : (n + 1 : ℤ).natAbs ≤ 2 ^ 53 := by omega
  rcases x.finite_or with hfin | rfl | ⟨negative, rfl⟩
  · rw [lt_ofInt_iff hfin hnext, toNat, toRat, hx, hfin]
    cases hneg : x.isNegative with
    | true =>
      have hnonneg := x.magnitude.value_nonneg
      have hpos : (0 : ℚ) < (n + 1 : ℤ) := by exact_mod_cast Nat.succ_pos n
      refine iff_of_true (Nat.zero_le n) ?_
      rw [if_pos rfl]
      linarith
    | false =>
      have hcut : x.magnitude.floor ≤ n ↔ x.magnitude.value < (n + 1 : ℤ) := by
        rw [← Int.floor_lt, ← Ratio.cast_floor]
        omega
      simp only [Bool.or_self, Bool.false_eq_true, if_false, if_true]
      rw [← hcut]
      omega
  · cases hx
  · have hside := (rounds_ofInt (n + 1)).compare_infinity
      (Layout.has_intCast_of_le hnext) negative
    rw [hside.1.1]
    exact toNat_infinity_le_iff hlimit negative

theorem isNaN_ofInt (k : ℤ) : (ofInt k : Double).isNaN = false := rfl

theorem toNat_ofInt_le_iff (hn : n < 2 ^ 53) (hlimit : n < limit) :
    (ofInt k : Double).toNat limit ≤ n ↔ k ≤ n := by
  rw [toNat_le_iff (isNaN_ofInt k) hn hlimit, ofInt_lt_ofInt_iff (by omega) (by omega),
    Int.lt_add_one_iff]

/-- A sum keeps to its side of a natural number, although it is rounded twice. -/
theorem toNat_plus_le_iff {i : ℤ} (hn : n < 2 ^ 53) (hlimit : n < limit)
    (hhigh : n + 1 ≤ 2 ^ 53 + i) (hlow : i ≤ n ∨ (i = n + 1 ∧ 0 ≤ k)) :
    ((ofInt k : Double).plus i).toNat limit ≤ n ↔ k + i ≤ n := by
  have hrest : (n + 1 - i : ℤ).natAbs ≤ 2 ^ 53 := by omega
  have hlt : (ofInt k : Double).lt (ofInt (n + 1 - i)) = true ↔ k + i ≤ n := by
    rw [ofInt_lt_ofInt_iff (by omega) (by omega)]
    omega
  rw [← hlt]
  rcases (ofInt k : Double).finite_or with hfin | hnan | ⟨negative, hinf⟩
  · have hsign : 0 < (n + 1 - i : ℤ) ∨
        ((n + 1 - i : ℤ) = 0 ∧ (ofInt k : Double).isNegative = false) := by
      rcases hlow with h | ⟨h, hk⟩
      · exact .inl (by omega)
      · exact .inr ⟨by omega, decide_eq_false (not_lt.2 hk)⟩
    rw [plus_of_isFinite hfin, toNat_ofInt_le_iff hn hlimit, lt_ofInt_iff hfin hrest,
      ← trunc_lt_iff hsign]
    omega
  · cases hnan
  · -- infinity is on the same side of all integers
    rw [hinf, (rounding_infinity negative i).2.2, toNat_infinity_le_iff hlimit,
      ((rounds_ofInt _).compare_infinity (Layout.has_intCast_of_le hrest) negative).1.1]

/-! ## Least and greatest natural numbers -/

theorem rounds_zero : (zero : Double).Rounds 0 := by
  rw [Rounds, Layout.nearestKey_zero]
  rfl

theorem zero_le_iff (hx : x.isFinite = true) : Binary.zero.le x = true ↔ 0 ≤ x.toRat := by
  have hzero : Layout.double.Has 0 := by simpa using Layout.has_intCast_of_le (i := 0) (by decide)
  exact rounds_zero.le_iff_of_has (rounds_toRat hx) hzero (has_toRat hx)

/-- **The least natural number that is not below a double.** -/
theorem toNat_ceil_le_iff (hx : x.isNaN = false) (hn : n < 2 ^ 53) (hlimit : n < limit) :
    x.ceil.toNat limit ≤ n ↔ x.le (ofInt n) = true := by
  have hnat : (n : ℤ).natAbs ≤ 2 ^ 53 := by omega
  rcases x.finite_or with hfin | rfl | ⟨negative, rfl⟩
  · rw [ceil_of_isFinite hfin, toNat_ofInt_le_iff hn hlimit, le_ofInt_iff hfin hnat, Int.ceil_le]
  · cases hx
  · rw [(rounding_infinity negative 0).2.1, toNat_infinity_le_iff hlimit,
      ((rounds_ofInt n).compare_infinity (Layout.has_intCast_of_le hnat) negative).1.2]

/-- **The least natural number that is above a double.** -/
theorem toNat_floor_plus_le_iff (hx : Binary.zero.le x = true) (hn : n < 2 ^ 53)
    (hlimit : n < limit) : (x.floor.plus 1).toNat limit ≤ n ↔ x.lt (ofInt n) = true := by
  have hnat : (n : ℤ).natAbs ≤ 2 ^ 53 := by omega
  rcases x.finite_or with hfin | rfl | ⟨negative, rfl⟩
  · have hnonneg : 0 ≤ ⌊x.toRat⌋ := Int.floor_nonneg.2 ((zero_le_iff hfin).1 hx)
    rw [floor_of_isFinite hfin, toNat_plus_le_iff hn hlimit (by omega) (by omega),
      lt_ofInt_iff hfin hnat, ← Int.floor_lt]
    omega
  · cases hx
  · obtain ⟨hfloor, -, hplus⟩ := rounding_infinity negative 1
    rw [hfloor, hplus, toNat_infinity_le_iff hlimit,
      ((rounds_ofInt n).compare_infinity (Layout.has_intCast_of_le hnat) negative).1.1]

/-- **The greatest natural number that is not above a double.** -/
theorem lt_toNat_floor_iff (hn : n < 2 ^ 53) (hlimit : n < limit) :
    n < x.floor.toNat limit ↔ (ofInt (n + 1)).le x = true := by
  have hnext : (n + 1 : ℤ).natAbs ≤ 2 ^ 53 := by omega
  rw [← not_le]
  rcases x.finite_or with hfin | rfl | ⟨negative, rfl⟩
  · rw [floor_of_isFinite hfin, toNat_ofInt_le_iff hn hlimit, ofInt_le_iff hfin hnext,
      ← Int.le_floor]
    omega
  · exact iff_of_false (not_not.2 (Nat.zero_le n)) (by simp [le, key])
  · rw [(rounding_infinity negative 0).1, toNat_infinity_le_iff hlimit,
      ((rounds_ofInt (n + 1)).compare_infinity (Layout.has_intCast_of_le hnext) negative).2.2]
    simp

/-- **The greatest natural number that is below a double.** -/
theorem lt_toNat_ceil_plus_iff (hn : n + 1 < 2 ^ 53) (hlimit : n < limit) :
    n < (x.ceil.plus (-1)).toNat limit ↔ (ofInt (n + 1)).lt x = true := by
  have hnext : (n + 1 : ℤ).natAbs ≤ 2 ^ 53 := by omega
  rw [← not_le]
  rcases x.finite_or with hfin | rfl | ⟨negative, rfl⟩
  · rw [ceil_of_isFinite hfin, toNat_plus_le_iff (by omega) hlimit (by omega) (by omega),
      ofInt_lt_iff hfin hnext, ← Int.lt_ceil]
    omega
  · exact iff_of_false (not_not.2 (Nat.zero_le n)) (by simp [lt, key])
  · obtain ⟨-, hceil, hplus⟩ := rounding_infinity negative (-1)
    rw [hceil, hplus, toNat_infinity_le_iff hlimit,
      ((rounds_ofInt (n + 1)).compare_infinity (Layout.has_intCast_of_le hnext) negative).2.1]
    simp

end Binary

end GameConfig
