import GameConfig.Proofs.Number.Whole
import GameConfig.Proofs.Rule.Range

/-
  Ranges of integers next to the doubles that they are read as.

  Whatever is read as an interval of integers is read as an interval of doubles
  too, with the nearest doubles as its ends (`exists_doubles?_of_integers?`).  So
  there is an interval of doubles for every range of an integer type, and where
  it has finite ends

  * it `Encloses` the integers between the values of these ends;
  * the rule reports all others, if rounding keeps the integer apart from the ends
    (`Rule.exists_faults_range_iff`).
-/

namespace GameConfig

-- powers are those of the core library, whatever algebra is imported
attribute [local instance (high)] instPowNat

/-! ## Reading -/

namespace Numeral

theorem exists_sign (cs : List Char) :
    ∃ (s : Sign) (ds : List Char), cs = s.chars ++ ds ∧ readSign cs = (s.isMinus, ds) := by
  unfold readSign
  split
  · exact ⟨.minus, _, rfl, rfl⟩
  · exact ⟨.plus, _, rfl, rfl⟩
  · exact ⟨.unsigned, _, rfl, rfl⟩

/-- What is read as an integer is a numeral. -/
theorem exists_of_readInt? {cs : List Char} {k : ℤ} (h : readInt? cs = some k) :
    ∃ n : Numeral, n.chars = cs := by
  obtain ⟨s, ds, rfl, hsign⟩ := exists_sign cs
  unfold readInt? at h
  rw [hsign] at h
  dsimp only at h
  split at h
  · cases h
  · rename_i hdigits
    simp only [Bool.or_eq_true, List.isEmpty_iff, Bool.not_eq_true', not_or,
      Bool.not_eq_false] at hdigits
    obtain ⟨hne, hall⟩ := hdigits
    refine ⟨⟨s, ds, none, none, List.all_eq_true.1 hall, by simp, by simpa using hne⟩, ?_⟩
    simp [chars, body, exponentChars]

/-- What is read as an integer of 64 bits is read as the double nearest to it as well. -/
theorem exists_rounds_of_readInt64? {cs : List Char} {k : ℤ} (h : readInt64? cs = some k) :
    ∃ x : Double, readDouble? cs = some x ∧ x.Rounds k := by
  obtain ⟨n, rfl⟩ : ∃ n : Numeral, n.chars = cs := by
    unfold readInt64? at h
    split at h
    · rename_i hread
      exact exists_of_readInt? hread
    · cases h
  obtain ⟨x, hx, hrounds⟩ := n.rounds_readDouble?
  rw [(n.readInt64?_eq_some_iff.1 h).2] at hrounds
  exact ⟨x, hx, hrounds⟩

end Numeral

namespace Interval

/-- An end that one reader reads is read by another. -/
theorem exists_side? {α β : Type} {read : List Char → Option α} {read' : List Char → Option β}
    {r : α → β → Prop} (hread : ∀ cs a, read cs = some a → ∃ b, read' cs = some b ∧ r a b)
    {cs : List Char} {e : Option α} (h : side? read cs = some e) :
    ∃ e', side? read' cs = some e' ∧ Option.Rel r e e' := by
  unfold side? at h ⊢
  split at h
  · cases h
    exact ⟨none, rfl, .none⟩
  · obtain ⟨a, ha, rfl⟩ := Option.map_eq_some_iff.1 h
    obtain ⟨b, hb, hr⟩ := hread _ a ha
    exact ⟨some b, by rw [hb]; rfl, .some hr⟩

section

variable {α β : Type} [Endpoint α] [Endpoint β] {read : List Char → Option α}
  {read' : List Char → Option β} {r : α → β → Prop}
  (hread : ∀ cs a, read cs = some a → ∃ b, read' cs = some b ∧ r a b)
  (horder : ∀ {a a' : α} {b b' : β}, r a b → r a' b' → Endpoint.lt b b' = true →
    Endpoint.lt a a' = true)

include horder in
/-- Ends that are in order stay so. -/
theorem Matches.isProper {i : Interval α} {j : Interval β} (h : Matches r i j)
    (hi : i.isProper = true) : j.isProper = true := by
  obtain ⟨imin, iminIn, imax, imaxIn⟩ := i
  obtain ⟨jmin, jminIn, jmax, jmaxIn⟩ := j
  obtain ⟨hmin, -, hmax, -⟩ := h
  cases hmin with
  | none =>
    cases hmax with
    | none => cases hi
    | some _ => rfl
  | some hx =>
    cases hmax with
    | none => rfl
    | some hy =>
      simp only [Interval.isProper, Bool.not_eq_true'] at hi ⊢
      rw [← Bool.not_eq_true] at hi ⊢
      intro hlt
      exact hi (horder hy hx hlt)

include hread

include horder

theorem exists_ends? {p q : Bool} {cs : List Char} {i : Interval α}
    (h : ends? read p q cs = some i) : ∃ j, ends? read' p q cs = some j ∧ Matches r i j := by
  unfold ends? at h ⊢
  split at h
  · cases h
  · split at h
    · rename_i a b ha hb
      obtain ⟨a', ha', hra⟩ := exists_side? hread ha
      obtain ⟨b', hb', hrb⟩ := exists_side? hread hb
      dsimp only at h
      split at h
      · rename_i hproper
        cases h
        have hmatches : Matches r ⟨a, p, b, q⟩ ⟨a', p, b', q⟩ := ⟨hra, rfl, hrb, rfl⟩
        refine ⟨⟨a', p, b', q⟩, ?_, hmatches⟩
        rw [ha', hb']
        exact if_pos (hmatches.isProper horder hproper)
      · cases h
    · cases h

/-- **An interval that one reader reads is read by another**, if that one reads its ends and keeps
    their order. -/
theorem exists_read? {text : String} {i : Interval α} (h : read? read text = some i) :
    ∃ j, read? read' text = some j ∧ Matches r i j := by
  unfold read? at h ⊢
  dsimp only at h ⊢
  split at h
  · exact exists_ends? hread horder h
  · split at h
    · rename_i hcomma
      rw [if_pos hcomma]
      exact exists_ends? hread horder h
    · rename_i hcomma
      obtain ⟨a, ha, rfl⟩ := Option.map_eq_some_iff.1 h
      obtain ⟨b, hb, hr⟩ := hread _ a ha
      refine ⟨.single b, ?_, .some hr, rfl, .some hr, rfl⟩
      rw [if_neg hcomma, hb]
      rfl

end

/-- **What is read as an interval of integers is read as one of doubles**, the nearest ones. -/
theorem exists_doubles?_of_integers? {text : String} {j : Interval ℤ}
    (h : integers? text = some j) : ∃ i, doubles? text = some i ∧
      Matches (fun (k : ℤ) (x : Double) => x.Rounds k) j i := by
  refine exists_read? (fun cs k => Numeral.exists_rounds_of_readInt64?) ?_ h
  intro k k' x x' hx hx' hlt
  exact decide_eq_true (Int.cast_lt.1 ((hx.lt_iff hx').1 hlt).1)

end Interval

/-- The range of an integer type, beside the interval of doubles that is written. -/
theorem Rule.exists_doubles?_of_rangeFor? {w : IntWidth} {text : String} {range : NumberRange}
    (h : rangeFor? (.integer w) text = some range) : ∃ i, doubles? text = some i ∧
      (range = .doubles i ∨ ∃ j, range = .integers j ∧
        Interval.Matches (fun (k : ℤ) (x : Double) => x.Rounds k) j i) := by
  unfold rangeFor? at h
  dsimp only at h
  split at h
  · rename_i j hj
    cases h
    obtain ⟨i, hi, hmatches⟩ := Interval.exists_doubles?_of_integers? hj
    exact ⟨i, hi, .inr ⟨j, rfl, hmatches⟩⟩
  · obtain ⟨i, hi, rfl⟩ := Option.map_eq_some_iff.1 h
    exact ⟨i, hi, .inl rfl⟩

/-! ## Comparing -/

/-- Below the power of two where doubles stop having all integers, they keep an integer apart from
    all others. -/
theorem Layout.eq_of_merges_natAbs_lt {k n : ℤ} (hn : n.natAbs < 2 ^ 53)
    (h : double.Merges k n) : k = n := by
  rcases lt_trichotomy k n with hlt | heq | hgt
  · exact absurd h (not_merges_of_lt (by omega) (by omega) hlt)
  · exact heq
  · -- the next integer is kept apart from this one, and what is rounded is not below it
    have hnext : ¬ double.Merges n (n + 1 : ℤ) :=
      not_merges_of_lt (by omega) (by omega) (lt_add_one n)
    have hstep : double.nearestKey n < double.nearestKey (n + 1 : ℤ) :=
      nearestKey_lt_iff.2 ⟨by exact_mod_cast lt_add_one n, hnext⟩
    have hmono : double.nearestKey (n + 1 : ℤ) ≤ double.nearestKey k :=
      nearestKey_mono (by exact_mod_cast hgt)
    rw [Merges] at h
    omega

theorem inRoundedOrder_iff_nearestKey {closed : Bool} {a b : ℚ} : InRoundedOrder closed a b ↔
    if closed then Layout.double.nearestKey a ≤ Layout.double.nearestKey b
    else Layout.double.nearestKey a < Layout.double.nearestKey b := by
  cases closed with
  | true => exact Layout.nearestKey_le_iff.symm
  | false => exact Layout.nearestKey_lt_iff.symm

section

variable {closed : Bool} {a b c : ℚ} (hab : Layout.double.Merges a b)
  (ha : Layout.double.Merges a c → a = c) (hb : Layout.double.Merges b c → b = c)

include hab ha hb

/-- Numbers that are rounded to one are on the same side of what rounding keeps apart from both. -/
theorem inOrder_congr_left : InOrder closed a c ↔ InOrder closed b c := by
  rw [← inRoundedOrder_iff ha, ← inRoundedOrder_iff hb, inRoundedOrder_iff_nearestKey,
    inRoundedOrder_iff_nearestKey, show Layout.double.nearestKey a = _ from hab]

theorem inOrder_congr_right : InOrder closed c a ↔ InOrder closed c b := by
  have ha' : Layout.double.Merges c a → c = a := fun h => (ha (Layout.merges_comm.1 h)).symm
  have hb' : Layout.double.Merges c b → c = b := fun h => (hb (Layout.merges_comm.1 h)).symm
  rw [← inRoundedOrder_iff ha', ← inRoundedOrder_iff hb', inRoundedOrder_iff_nearestKey,
    inRoundedOrder_iff_nearestKey, show Layout.double.nearestKey a = _ from hab]

end

/-- A double that an integer is not rounded to is apart from it, whatever the double stands for. -/
theorem Binary.not_merges_of_eqv {x : Double} {q : ℚ} {n : ℤ} (hx : x.Rounds q)
    (h : x.eqv (.ofInt n) = false) : ¬ Layout.double.Merges q n := by
  intro hm
  have hint := rounds_ofInt (l := .double) n
  rw [Rounds] at hx hint
  simp [eqv, hx, hint, show Layout.double.nearestKey q = _ from hm] at h

namespace Interval

/-- All ends are finite. -/
def IsFinite (i : Interval Double) : Prop :=
  ∀ x, x ∈ i.min ∨ x ∈ i.max → x.isFinite = true

/-- The integer lies between the values of the ends. -/
def Encloses (i : Interval Double) (n : ℤ) : Prop :=
  (∀ x ∈ i.min, InOrder i.minIn x.toRat n) ∧ ∀ x ∈ i.max, InOrder i.maxIn n x.toRat

/-- Rounding keeps the integer apart from the ends: it is below the power of two where doubles stop
    having all integers, or no end is the double nearest to it. -/
def KeepsApart (i : Interval Double) (n : ℤ) : Prop :=
  n.natAbs < 2 ^ 53 ∨ ∀ x, x ∈ i.min ∨ x ∈ i.max → x.eqv (.ofInt n) = false

theorem contains_iff {α : Type} [Endpoint α] {i : Interval α} {a : α} : i.contains a = true ↔
    (∀ m ∈ i.min, (if i.minIn then Endpoint.le m a else Endpoint.lt m a) = true) ∧
      ∀ m ∈ i.max, (if i.maxIn then Endpoint.le a m else Endpoint.lt a m) = true := by
  obtain ⟨min, minIn, max, maxIn⟩ := i
  cases min <;> cases max <;> simp [contains, above, below]

variable {i : Interval Double} {n : ℤ} {x : Double}

theorem KeepsApart.eq_of_merges_toRat (h : i.KeepsApart n) (hfin : i.IsFinite)
    (hx : x ∈ i.min ∨ x ∈ i.max) (hm : Layout.double.Merges x.toRat n) : x.toRat = n := by
  have hend := hfin x hx
  rcases h with hn | hends
  · exact (Binary.has_toRat hend).eq_of_merges (Layout.has_intCast hn) hm
  · exact absurd hm (Binary.not_merges_of_eqv (Binary.rounds_toRat hend) (hends x hx))

theorem KeepsApart.eq_of_merges_intCast (h : i.KeepsApart n) (hx : x ∈ i.min ∨ x ∈ i.max) {k : ℤ}
    (hk : x.Rounds k) (hm : Layout.double.Merges k n) : (k : ℚ) = n := by
  rcases h with hn | hends
  · rw [Layout.eq_of_merges_natAbs_lt hn hm]
  · exact absurd hm (Binary.not_merges_of_eqv hk (hends x hx))

/-- Doubles as ends are compared with the rounded integer as with the integer. -/
theorem contains_ofInt_iff (hfin : i.IsFinite) (hapart : i.KeepsApart n) :
    i.contains (.ofInt n) = true ↔ i.Encloses n := by
  have hint := Binary.rounds_ofInt (l := .double) n
  rw [contains_iff, Encloses]
  refine and_congr (forall₂_congr fun x hx => ?_) (forall₂_congr fun x hx => ?_)
  · rw [before_double _ (Binary.rounds_toRat (hfin x (.inl hx))) hint]
    exact inRoundedOrder_iff (hapart.eq_of_merges_toRat hfin (.inl hx))
  · rw [before_double _ hint (Binary.rounds_toRat (hfin x (.inr hx)))]
    refine inRoundedOrder_iff fun hm => ?_
    exact (hapart.eq_of_merges_toRat hfin (.inr hx) (Layout.merges_comm.1 hm)).symm

/-- Integers as ends are compared with the integer as the doubles nearest to them. -/
theorem Matches.contains_iff_encloses {j : Interval ℤ}
    (h : Matches (fun (k : ℤ) (x : Double) => x.Rounds k) j i) (hfin : i.IsFinite)
    (hapart : i.KeepsApart n) : j.contains n = true ↔ i.Encloses n := by
  have hmerges : ∀ {k : ℤ} {x : Double}, (x ∈ i.min ∨ x ∈ i.max) → x.Rounds k →
      Layout.double.Merges k x.toRat := by
    intro k x hx hk
    have htoRat := Binary.rounds_toRat (hfin x hx)
    rw [Binary.Rounds] at hk htoRat
    exact Option.some.inj (hk.symm.trans htoRat)
  obtain ⟨imin, iminIn, imax, imaxIn⟩ := i
  obtain ⟨jmin, jminIn, jmax, jmaxIn⟩ := j
  obtain ⟨hmin, rfl, hmax, rfl⟩ := h
  dsimp only at hmin hmax hmerges
  rw [Interval.contains_iff, Encloses]
  refine and_congr ?_ ?_
  · cases hmin with
    | none => simp
    | some hk =>
      have hcongr : InOrder jminIn _ n ↔ InOrder jminIn _ n :=
        inOrder_congr_left (hmerges (.inl rfl) hk) (hapart.eq_of_merges_intCast (.inl rfl) hk)
          (hapart.eq_of_merges_toRat hfin (.inl rfl))
      simpa [← hcongr] using before_int jminIn rfl rfl
  · cases hmax with
    | none => simp
    | some hk =>
      have hcongr : InOrder jmaxIn n _ ↔ InOrder jmaxIn n _ :=
        inOrder_congr_right (hmerges (.inr rfl) hk) (hapart.eq_of_merges_intCast (.inr rfl) hk)
          (hapart.eq_of_merges_toRat hfin (.inr rfl))
      simpa [← hcongr] using before_int jmaxIn rfl rfl

end Interval

/-- **The rule of an integer type reports what the written doubles do not enclose**, if they are
    finite and rounding keeps the integer apart from them. -/
theorem Rule.exists_faults_range_iff {w : IntWidth} {text : String} {range : NumberRange}
    (h : rangeFor? (.integer w) text = some range) : ∃ i, doubles? text = some i ∧
      ∀ n : ℤ, i.IsFinite → i.KeepsApart n →
        (range.faults (.integer w n) = [] ↔ i.Encloses n) := by
  obtain ⟨i, hi, hrange⟩ := exists_doubles?_of_rangeFor? h
  refine ⟨i, hi, fun n hfin hapart => ?_⟩
  rcases hrange with rfl | ⟨j, rfl, hmatches⟩
  · rw [← Interval.contains_ofInt_iff hfin hapart]
    exact not_iff_not.1 Rule.outside_ne_nil_iff
  · rw [← hmatches.contains_iff_encloses hfin hapart]
    exact not_iff_not.1 Rule.outside_ne_nil_iff

end GameConfig
