import GameConfig.Proofs.Number.NearMiss
import GameConfig.Proofs.Number.Written

/-
  A single that is written as a decimal and read as a double.

  The decimal is rounded to a double, and that to a single: twice, where once
  would give the single back.  The second rounding goes wrong only if the first
  one ends at a midpoint between singles.  Midpoints are doubles
  (`exists_double_midpoint`), so that takes a decimal that all but meets one; of
  the shortest decimals of singles one does (`Single.rereadAstray`).

  * `Binary.nearestRank_twice`: what the first rounding has to avoid;
  * `Binary.nearMiss_of_near`: the one decimal that is near to a midpoint;
  * `Single.narrow_exported`: the single comes back, with one exception;
  * `Single.exported_inj`: without exception, it is the only one with that double;
  * `Single.abs_exported_le`: the double is within the range of singles,
    unless it stands for the greatest one.
-/

namespace GameConfig

-- powers are those of the core library, whatever algebra is imported
attribute [local instance (high)] instPowNat

/-- The single whose shortest decimal, `7.038531e-26`, is rounded to a double halfway to the
    next single. -/
def Single.rereadAstray : Single := .ofRank false 0x15AE43FD

namespace Binary

open Decimal

/-- A midpoint is an odd multiple of half a unit. -/
theorem midpoint_eq (l : Layout) (rank : ℕ) :
    l.midpoint rank = ((2 * l.significand rank + 1 : ℕ) : ℚ) * 2 ^ (l.exponent rank - 1) := by
  rw [Layout.midpoint, zpow_sub_one₀ two_ne_zero]
  push_cast
  ring

/-- **Midpoints between singles are doubles.** -/
theorem exists_double_midpoint {rank : ℕ} (h : rank < Layout.single.top) :
    ∃ k, (ratioOfRank .double k).value = Layout.single.midpoint rank := by
  obtain ⟨hexp, -, hsig⟩ := single_bounds h
  have hleast : Layout.double.leastExponent = -1074 := by decide
  rw [midpoint_eq]
  refine exists_rank ?_ (by omega)
  show 2 * Layout.single.significand rank + 1 < 2 ^ 53
  omega

/-- Whoever is rounded once to the single is rounded to it over a double, unless the double is at
    one end of what is rounded to the single and the ends are not. -/
theorem nearestRank_twice {r : Ratio} (hd : 0 < r.den) {rank : ℕ} (htop : rank + 1 < Layout.single.top)
    (hr : nearestRank .single r = rank + 1)
    (hodd : Layout.single.significand (rank + 1) % 2 = 1 →
      (ratioOfRank .double (nearestRank .double r)).value ≠ Layout.single.midpoint rank ∧
      (ratioOfRank .double (nearestRank .double r)).value ≠ Layout.single.midpoint (rank + 1)) :
    nearestRank .single (ratioOfRank .double (nearestRank .double r)) = rank + 1 := by
  have hd' := den_ratioOfRank_pos (l := .double) (nearestRank .double r)
  have heven := Layout.single.significand_succ_even_iff (by decide) rank
  have hparity := Nat.mod_two_eq_zero_or_one (Layout.single.significand (rank + 1))
  obtain ⟨low, hlow⟩ := exists_double_midpoint (Nat.lt_of_succ_lt htop)
  obtain ⟨high, hhigh⟩ := exists_double_midpoint htop
  refine le_antisymm ((nearestRank_le_iff hd' _).2 ?_) ((le_nearestRank_iff hd' _).2 ?_)
  · have hle : (ratioOfRank .double (nearestRank .double r)).value ≤
        Layout.single.midpoint (rank + 1) := by
      rw [← hhigh]
      refine value_nearestRank_le hd ?_
      rw [hhigh]
      rcases (nearestRank_le_iff hd _).1 hr.le with h | ⟨h, -⟩
      · exact h.le
      · exact h.le
    rcases hparity with h | h
    · exact hle.lt_or_eq.imp_right fun heq => ⟨heq, h⟩
    · exact .inl (hle.lt_of_ne (hodd h).2)
  · have hge : Layout.single.midpoint rank ≤
        (ratioOfRank .double (nearestRank .double r)).value := by
      rw [← hlow]
      refine le_value_nearestRank hd ?_
      rw [hlow]
      rcases (le_nearestRank_iff hd _).1 hr.ge with h | ⟨h, -⟩
      · exact h.le
      · exact h.ge
    rcases hparity with h | h
    · exact hge.lt_or_eq.imp_right fun heq => ⟨heq.symm, heven.1 h⟩
    · exact .inl (hge.lt_of_ne (hodd h).1.symm)

/-- A double that is a multiple of half a unit by few bits is that near to what was rounded. -/
theorem near_of_nearestRank {r : Ratio} (hd : 0 < r.den) {e : ℤ} (he : -149 ≤ e) {n : ℕ}
    (hn : n < 2 ^ 25)
    (h : (ratioOfRank .double (nearestRank .double r)).value = n * 2 ^ (e - 1)) :
    2 ^ 29 * |r.value - n * 2 ^ (e - 1)| ≤ 2 ^ (e - 1) := by
  have hleast : Layout.double.leastExponent = -1074 := by decide
  have hexp : Layout.double.exponent (nearestRank .double r) ≤ e - 29 := by
    refine exponent_le_of_value_lt (by omega) ?_
    rw [h]
    calc (n : ℚ) * 2 ^ (e - 1) < ((2 ^ 25 : ℕ) : ℚ) * 2 ^ (e - 1) := by gcongr
      _ = 2 ^ (((52 : ℕ) : ℤ) + 1 + (e - 29)) := by
        rw [show ((52 : ℕ) : ℤ) + 1 + (e - 29) = 25 + (e - 1) by push_cast; ring,
          zpow_add₀ two_ne_zero]
        norm_num
  have herror := abs_sub_value_nearestRank_le (l := .double) hd
  rw [h] at herror
  calc 2 ^ 29 * |r.value - n * 2 ^ (e - 1)| ≤ 2 ^ 29 * (2 ^ (e - 29) / 2) := by
        gcongr
        refine herror.trans ?_
        gcongr
        norm_num
    _ = 2 ^ (e - 1) := by
        rw [show e - 1 = 28 + (e - 29) by ring, zpow_add₀ two_ne_zero]
        ring

/-- Below a rank with an odd significand, the midpoint is half a unit below it. -/
theorem midpoint_of_odd {rank : ℕ} (hodd : Layout.single.significand (rank + 1) % 2 = 1) :
    Layout.single.midpoint rank = ((2 * Layout.single.significand (rank + 1) - 1 : ℕ) : ℚ) *
      2 ^ (Layout.single.exponent (rank + 1) - 1) := by
  rcases Layout.single.significand_exponent_succ rank with ⟨hs, he⟩ | ⟨-, hs, -⟩
  · rw [midpoint_eq, hs, he]
    rfl
  · -- an octave begins with an even significand
    rw [hs] at hodd
    cases hodd

section

variable (tie : Tie) {rank : ℕ} (htop : rank + 1 < Layout.single.top)
  (hodd : Layout.single.significand (rank + 1) % 2 = 1)

include htop hodd

/-- The shortest decimal of a single with an odd significand is between the midpoints. -/
theorem midpoint_lt_shortest :
    Layout.single.midpoint rank < (shortest .single tie (rank + 1)).value ∧
      (shortest .single tie (rank + 1)).value < Layout.single.midpoint (rank + 1) := by
  obtain ⟨-, hin⟩ := Interval.hit_spec (hit_shortest (.inl rfl) tie rank.succ_pos htop)
  obtain ⟨hlow, hhigh⟩ := Interval.ends_ofRank (l := .single) rank
  have hopen : ¬ (Interval.ofRank .single (rank + 1)).closed = true := by
    rw [Interval.closed_ofRank_iff]
    omega
  rwa [Interval.Contains, if_neg hopen, hlow, hhigh] at hin

/-- It is near to the single if its grid is fine. -/
theorem abs_shortest_sub_le
    (hk : (10 : ℚ) ^ (shortest .single tie (rank + 1)).exponent ≤
      2 * 2 ^ (Layout.single.exponent (rank + 1) - 1)) :
    |(shortest .single tie (rank + 1)).value -
        2 * Layout.single.significand (rank + 1) * 2 ^ (Layout.single.exponent (rank + 1) - 1)| ≤
      10 ^ (shortest .single tie (rank + 1)).exponent / 2 := by
  obtain ⟨hlow, hhigh⟩ := Interval.ends_ofRank (l := .single) rank
  have hdistance := fun w =>
    Interval.abs_sub_le_of_hit (w := w) (h := hit_shortest (.inl rfl) tie rank.succ_pos htop)
  have hcast : ((2 * Layout.single.significand (rank + 1) - 1 : ℕ) : ℚ) =
      2 * Layout.single.significand (rank + 1) - 1 := by
    rw [Nat.cast_sub (by omega)]
    push_cast
    rfl
  have hvalue : (Layout.single.significand (rank + 1) : ℚ) *
      2 ^ Layout.single.exponent (rank + 1) =
        2 * Layout.single.significand (rank + 1) *
          2 ^ (Layout.single.exponent (rank + 1) - 1) := by
    rw [zpow_sub_one₀ two_ne_zero]
    ring
  rw [hlow, hhigh, Interval.value_ofRank, midpoint_of_odd hodd, midpoint_eq, value_ratioOfRank,
    hvalue, hcast] at hdistance
  refine hdistance (2 ^ (Layout.single.exponent (rank + 1) - 1)) ?_ ?_ hk
  · ring
  · push_cast
    ring

/-- **It does not come near to the midpoints**, with one exception. -/
theorem nearMiss_of_near {n : ℕ}
    (hn : n = 2 * Layout.single.significand (rank + 1) - 1 ∨
      n = 2 * Layout.single.significand (rank + 1) + 1)
    (hnear : 2 ^ 29 * |(shortest .single tie (rank + 1)).value -
      n * 2 ^ (Layout.single.exponent (rank + 1) - 1)| ≤
        2 ^ (Layout.single.exponent (rank + 1) - 1)) :
    Layout.single.exponent (rank + 1) = -107 ∧ n = 22841339 := by
  obtain ⟨hexp₁, hexp₂, hsig⟩ := single_bounds htop
  obtain ⟨hlow, hhigh⟩ := midpoint_lt_shortest tie htop hodd
  have hdistance := abs_shortest_sub_le tie htop hodd
  rw [midpoint_of_odd hodd] at hlow
  rw [midpoint_eq] at hhigh
  rw [value] at hlow hhigh hdistance hnear
  generalize (shortest .single tie (rank + 1)).digits = c at *
  generalize (shortest .single tie (rank + 1)).exponent = k at *
  generalize Layout.single.significand (rank + 1) = m at *
  generalize Layout.single.exponent (rank + 1) = e at *
  rcases lt_or_ge k (Grid.exponent e) with hk | hk
  · -- a fine grid has a point near to the single
    exfalso
    have hfine := Grid.two_pow_mul_ten_zpow_le ⟨hexp₁, hexp₂⟩ hk
    have hunit : (2 : ℚ) ^ e = 2 * 2 ^ (e - 1) := by
      rw [zpow_sub_one₀ two_ne_zero]
      ring
    have hpos : (0 : ℚ) < 2 ^ (e - 1) := by positivity
    rw [hunit] at hfine
    have hone : |(2 * m * 2 ^ (e - 1) : ℚ) - n * 2 ^ (e - 1)| = 2 ^ (e - 1) := by
      have hdiff : |(2 * m - n : ℤ)| = 1 := (abs_eq zero_le_one).2 (by omega)
      rw [← sub_mul, abs_mul, abs_of_pos hpos, mul_eq_right₀ hpos.ne']
      exact_mod_cast hdiff
    have := abs_sub_le (2 * m * 2 ^ (e - 1) : ℚ) (c * 10 ^ k) (n * 2 ^ (e - 1))
    rw [hone, abs_sub_comm] at this
    have := hdistance (by linarith)
    linarith
  · have hbound : (c : ℚ) * 10 ^ k ≤ 2 ^ 25 * 2 ^ (e - 1) := by
      refine hhigh.le.trans ?_
      gcongr
      exact_mod_cast (show 2 * m + 1 ≤ 2 ^ 25 by omega)
    refine (Grid.eq_or_nearMiss ⟨hexp₁, hexp₂⟩ hk ⟨by omega, by omega⟩ hbound hnear).resolve_left ?_
    -- the midpoints themselves are outside
    intro heq
    rcases hn with rfl | rfl
    · exact hlow.ne' heq
    · exact hhigh.ne heq

end

/-- **The shortest decimal of a single is rounded to it over a double**, with one exception. -/
theorem nearestRank_twice_shortest (tie : Tie) {rank : ℕ} (htop : rank < Layout.single.top)
    (hne : rank ≠ 0x15AE43FD) {r : Ratio} (hd : 0 < r.den)
    (hr : r.value = (shortest .single tie rank).value) :
    nearestRank .single (ratioOfRank .double (nearestRank .double r)) = rank := by
  have honce := nearestRank_shortest (.inl rfl) tie htop hd hr
  cases rank with
  | zero =>
    rw [nearestRank_of_value_eq_zero hd (hr.trans (value_shortest_zero tie)),
      nearestRank_of_value_eq_zero (den_ratioOfRank_pos 0) value_ratioOfRank_zero]
  | succ rank =>
    refine nearestRank_twice hd htop honce fun hodd => ?_
    obtain ⟨hexp₁, -, hsig⟩ := single_bounds htop
    have hrank := Layout.single.rank_eq (rank + 1)
    have hleast : Layout.single.leastExponent = -149 := by decide
    -- what is near to a midpoint is the exception
    have hfar : ∀ {n : ℕ}, n = 2 * Layout.single.significand (rank + 1) - 1 ∨
        n = 2 * Layout.single.significand (rank + 1) + 1 →
        (ratioOfRank .double (nearestRank .double r)).value ≠
          n * 2 ^ (Layout.single.exponent (rank + 1) - 1) := by
      intro n hn h
      have hnear := near_of_nearestRank hd hexp₁ (by omega) h
      rw [hr] at hnear
      obtain ⟨hexp, rfl⟩ := nearMiss_of_near tie htop hodd hn hnear
      have hsig' : Layout.single.significand (rank + 1) = 11420669 := by omega
      rw [hexp, hsig', hleast] at hrank
      exact hne hrank
    rw [midpoint_of_odd hodd, midpoint_eq]
    exact ⟨hfar (.inl rfl), hfar (.inr rfl)⟩

/-- A number is its magnitude with its sign. -/
theorem eq_of_abs_eq {l : Layout} {x : Binary l} {rank : ℕ} (h : x.abs = ofRank false rank) :
    x = ofRank x.isNegative rank := by
  cases x with
  | nan => cases h
  | ranked negative r =>
    rw [abs, ofRank, ranked.injEq] at h
    rw [isNegative, ofRank, h.2]

end Binary

namespace Single

/-- **A finite single comes back from what it is exported as**, with one exception. -/
theorem narrow_exported {x : Single} (hx : x.isFinite = true) (hne : x.abs ≠ rereadAstray) :
    x.exported.narrow = x := by
  cases x with
  | nan => cases hx
  | ranked negative rank =>
    have hfin : rank.val < Layout.single.top := by simpa [Binary.isFinite] using hx
    have hrank : rank.val ≠ 0x15AE43FD := fun h => hne (by
      rw [Binary.abs, ← Binary.ofRank_val, h]
      rfl)
    obtain ⟨r, hd, hvalue, hexported, hfinite⟩ := exists_exported_eq negative hfin
    have htwice := Binary.nearestRank_twice_shortest .up hfin hrank hd hvalue
    rw [hexported] at hfinite ⊢
    have hdouble : min (Binary.nearestRank .double r) Layout.double.top < Layout.double.top := by
      simpa [Binary.ofRatio, Binary.ofRank, Binary.isFinite] using hfinite
    rw [Binary.narrow, Binary.ofRatio, Binary.ofRank, Binary.convert, if_pos hdouble]
    dsimp only
    rw [Nat.min_eq_left (by omega), Binary.ofRatio, htwice, Binary.ofRank_val]

/-- **It is exported within the range of singles**, but for the greatest one. -/
theorem abs_exported_le {x : Single} (hx : x.isFinite = true) (hne : x.abs ≠ greatest) :
    x.exported.abs.le greatest.widen = true := by
  cases x with
  | nan => cases hx
  | ranked negative rank =>
    have hfin : rank.val < Layout.single.top := by simpa [Binary.isFinite] using hx
    have hrank : rank.val ≠ Layout.single.top - 1 := fun h => hne (by
      rw [Binary.abs, ← Binary.ofRank_val, h]
      rfl)
    obtain ⟨r, hd, hvalue, hexported, -⟩ := exists_exported_eq negative hfin
    have honce := Decimal.nearestRank_shortest (.inl rfl) .up hfin hd hvalue
    have hmid : r.value ≤ Layout.single.midpoint rank := by
      rcases (Binary.nearestRank_le_iff hd _).1 honce.le with h | ⟨h, -⟩
      · exact h.le
      · exact h.le
    have hlimit : r.value ≤ (Binary.ratioOfRank .double 5183643170566569984).value := by
      calc r.value ≤ (Binary.ratioOfRank .single (rank + 1)).value :=
            hmid.trans (Binary.midpoint_lt_value_succ _).le
        _ ≤ (Binary.ratioOfRank .single (Layout.single.top - 1)).value :=
            Binary.value_ratioOfRank_mono (by omega)
        _ = (Binary.ratioOfRank .double 5183643170566569984).value := Binary.value_greatest.symm
    have hle := Binary.nearestRank_mono (l := .double) hd (Binary.den_ratioOfRank_pos _) hlimit
    rw [Binary.nearestRank_ratioOfRank] at hle
    rw [hexported, Binary.le, Binary.key_widen_greatest, Binary.ofRatio, Binary.ofRank, Binary.abs,
      Binary.key]
    simp
    omega

/-- The greatest single is exported beyond the range of singles, under either sign. -/
theorem exported_greatest (negative : Bool) :
    (exported (.ofRank negative (Layout.single.top - 1))).abs.le greatest.widen = false := by
  cases negative <;> decide +kernel

/-- The exception comes back as the next single, under either sign. -/
theorem narrow_exported_rereadAstray (negative : Bool) :
    (exported (.ofRank negative 0x15AE43FD)).narrow = .ofRank negative 0x15AE43FE := by
  cases negative <;> decide +kernel

/-- **Finite singles are exported as different doubles.** -/
theorem exported_inj {x y : Single} (hx : x.isFinite = true) (hy : y.isFinite = true)
    (h : x.exported = y.exported) : x = y := by
  have hastray : ∀ {z w : Single}, w.isFinite = true → z.abs = rereadAstray →
      z.exported = w.exported → w.abs = rereadAstray := by
    intro z w hw hz hzw
    by_contra hne
    have hback := narrow_exported hw hne
    rw [← hzw, Binary.eq_of_abs_eq hz, narrow_exported_rereadAstray] at hback
    -- the next single is exported as another double
    rw [← hback, Binary.eq_of_abs_eq hz] at hzw
    revert hzw
    cases z.isNegative <;> decide +kernel
  by_cases hax : x.abs = rereadAstray
  · have hay := hastray hy hax h
    rw [Binary.eq_of_abs_eq hax, Binary.eq_of_abs_eq hay] at h ⊢
    revert h
    cases x.isNegative <;> cases y.isNegative <;> decide +kernel
  · have hay : y.abs ≠ rereadAstray := fun hay => hax (hastray hx hay h.symm)
    rw [← narrow_exported hx hax, h, narrow_exported hy hay]

/-- **A finite single is exported as a double that loads as it**, but for the greatest one and the one
    exception, under either sign. -/
theorem exported_iff {x : Single} (hx : x.isFinite = true) :
    (x.exported.abs.le greatest.widen = true ∧ x.same x.exported.narrow = true) ↔
      x.abs ≠ greatest ∧ x.abs ≠ rereadAstray := by
  constructor
  · rintro ⟨hle, hsame⟩
    constructor
    · intro h
      rw [Binary.eq_of_abs_eq h, exported_greatest] at hle
      cases hle
    · intro h
      rw [Binary.eq_of_abs_eq h, narrow_exported_rereadAstray] at hsame
      revert hsame
      cases x.isNegative <;> decide +kernel
  · rintro ⟨hgreatest, hastray⟩
    refine ⟨abs_exported_le hx hgreatest, ?_⟩
    rw [narrow_exported hx hastray, Binary.same]
    exact beq_self_eq_true _

end Single

end GameConfig
