import GameConfig.Proofs.Rule.Compile
import GameConfig.Proofs.Rule.Interval

/-
  Ranges of integers.

  The range of an integer type is compared exactly if its ends are written as
  integers of 64 bits and are in order (`Interval.Exact`).  Else ends and values
  are rounded to doubles first, and what rounding makes one counts as equal:

  * `RuleKind.exists_compile_range_iff`: which intervals are rules;
  * `RuleKind.faults_range_iff`: when an integer is reported;
  * `RuleKind.compile_reversed_iff`: when an interval with its ends the wrong way
    round is an error.
-/

namespace GameConfig

/-- The numbers are in this order, or equal if the end is closed. -/
def InOrder (closed : Bool) (a b : ℚ) : Prop := if closed then a ≤ b else a < b

/-- The doubles nearest to the numbers are in this order, or equal if the end is closed. -/
def InRoundedOrder (closed : Bool) (a b : ℚ) : Prop :=
  if closed then a ≤ b ∨ Layout.double.Merges a b else a < b ∧ ¬ Layout.double.Merges a b

/-- Rounding does not change the order of what it keeps apart. -/
theorem inRoundedOrder_iff {closed : Bool} {a b : ℚ} (h : Layout.double.Merges a b → a = b) :
    InRoundedOrder closed a b ↔ InOrder closed a b := by
  cases closed with
  | true =>
    show a ≤ b ∨ Layout.double.Merges a b ↔ a ≤ b
    exact ⟨fun hor => hor.elim id fun hm => (h hm).le, .inl⟩
  | false =>
    show a < b ∧ ¬ Layout.double.Merges a b ↔ a < b
    exact ⟨And.left, fun hlt => ⟨hlt, fun hm => hlt.ne (h hm)⟩⟩

/-! ## Comparison -/

theorem before_int (closed : Bool) {x y : ℤ} {a b : ℚ} (hx : a = x) (hy : b = y) :
    (if closed then Endpoint.le x y else Endpoint.lt x y) = true ↔ InOrder closed a b := by
  subst hx hy
  cases closed <;> simp [Endpoint.le, Endpoint.lt, InOrder]

theorem before_double (closed : Bool) {x y : Double} {a b : ℚ} (hx : x.Rounds a) (hy : y.Rounds b) :
    (if closed then Endpoint.le x y else Endpoint.lt x y) = true ↔ InRoundedOrder closed a b := by
  cases closed with
  | true => exact hx.le_iff hy
  | false => exact hx.lt_iff hy

namespace Interval

/-- The ends are integers of 64 bits, written as such, and in order. -/
structure Exact (i : Interval Numeral) : Prop where
  min : ∀ a ∈ i.min, a.IsInt64
  max : ∀ b ∈ i.max, b.IsInt64
  ordered : ∀ a ∈ i.min, ∀ b ∈ i.max, a.value ≤ b.value

variable {text : String} {i : Interval Numeral} (hw : i.Written text)

include hw

theorem Written.integers?_eq_some_iff {j : Interval ℤ} : integers? text = some j ↔
    Matches (fun n x => Numeral.readInt64? n.chars = some x) i j ∧ j.isProper = true :=
  hw.read?_eq_some_iff fun x => decide_eq_false (lt_irrefl x)

theorem Written.doubles?_eq_some_iff {j : Interval Double} : doubles? text = some j ↔
    Matches (fun n x => Numeral.readDouble? n.chars = some x) i j ∧ j.isProper = true :=
  hw.read?_eq_some_iff Binary.lt_self_eq_false

/-- What is read as an interval of integers has the written ones as its ends. -/
theorem Written.matches_integers? {j : Interval ℤ} (h : integers? text = some j) :
    Matches (fun (n : Numeral) (x : ℤ) => n.value = x) i j :=
  (hw.integers?_eq_some_iff.1 h).1.imp fun n _ hx => (n.readInt64?_eq_some_iff.1 hx).2

/-- An interval of integers needs an end, and is exact. -/
theorem Written.exists_integers?_iff : (∃ j, integers? text = some j) ↔
    (i.min.isSome = true ∨ i.max.isSome = true) ∧ i.Exact := by
  constructor
  · rintro ⟨j, h⟩
    obtain ⟨hread, hproper⟩ := hw.integers?_eq_some_iff.1 h
    obtain ⟨hmin, hmax⟩ := exists_matches_iff.1 ⟨j, hread⟩
    obtain ⟨hend, hordered⟩ := ((hw.matches_integers? h).isProper_iff before_int).1 hproper
    refine ⟨hend, fun a ha => ?_, fun b hb => ?_, fun a ha b hb => ?_⟩
    · obtain ⟨x, hx⟩ := hmin a ha
      exact (a.readInt64?_eq_some_iff.1 hx).1
    · obtain ⟨x, hx⟩ := hmax b hb
      exact (b.readInt64?_eq_some_iff.1 hx).1
    · exact not_lt.1 (hordered a ha b hb)
  · rintro ⟨hend, hx⟩
    obtain ⟨j, hread⟩ := exists_matches_iff.2 ⟨fun a ha => (hx.min a ha).exists_readInt64?,
      fun b hb => (hx.max b hb).exists_readInt64?⟩
    have hvalue : Matches (fun (n : Numeral) (x : ℤ) => n.value = x) i j :=
      hread.imp fun n x hx => (n.readInt64?_eq_some_iff.1 hx).2
    refine ⟨j, hw.integers?_eq_some_iff.2 ⟨hread, ?_⟩⟩
    refine (hvalue.isProper_iff before_int).2 ⟨hend, fun a ha b hb => ?_⟩
    exact not_lt.2 (hx.ordered a ha b hb)

/-- What is read as an interval of doubles has the nearest ones as its ends. -/
theorem Written.matches_doubles? {j : Interval Double} (h : doubles? text = some j) :
    Matches (fun n x => x.Rounds n.value) i j := by
  refine (hw.doubles?_eq_some_iff.1 h).1.imp fun n x hx => ?_
  obtain ⟨y, hy, hrounds⟩ := n.rounds_readDouble?
  cases hx.symm.trans hy
  exact hrounds

/-- An interval of doubles needs an end, and ends that are in order when they are rounded. -/
theorem Written.exists_doubles?_iff : (∃ j, doubles? text = some j) ↔
    (i.min.isSome = true ∨ i.max.isSome = true) ∧
      ∀ a ∈ i.min, ∀ b ∈ i.max, ¬ InRoundedOrder false b.value a.value := by
  constructor
  · rintro ⟨j, h⟩
    exact ((hw.matches_doubles? h).isProper_iff before_double).1 (hw.doubles?_eq_some_iff.1 h).2
  · intro hproper
    obtain ⟨j, hj⟩ := exists_matches_iff.2 ⟨fun a (_ : a ∈ i.min) => a.rounds_readDouble?,
      fun b (_ : b ∈ i.max) => b.rounds_readDouble?⟩
    have hrounds := hj.imp fun n x hx => hx.2
    exact ⟨j, hw.doubles?_eq_some_iff.2
      ⟨hj.imp fun n x hx => hx.1, (hrounds.isProper_iff before_double).2 hproper⟩⟩

end Interval

/-- Rounding does not change what an interval admits, if it keeps the ends apart from the number. -/
theorem Interval.admits_rounded_iff (i : Interval Numeral) {v : ℚ}
    (h : ∀ a, a ∈ i.min ∨ a ∈ i.max → Layout.double.Merges a.value v → a.value = v) :
    i.Admits InRoundedOrder v ↔ i.Admits InOrder v := by
  refine and_congr (forall₂_congr fun a ha => ?_) (forall₂_congr fun b hb => ?_)
  · exact inRoundedOrder_iff (h a (.inl ha))
  · exact inRoundedOrder_iff fun hm => (h b (.inr hb) (Layout.merges_comm.1 hm)).symm

/-! ## The rule -/

namespace Rule

theorem outside_ne_nil_iff {α : Type} [Endpoint α] {i : Interval α} {inside : Bool}
    {number : String} : outside i inside number ≠ [] ↔ ¬ inside = true := by
  cases inside <;> simp [outside]

/-- An integer type has the rule of its range, if there is one. -/
theorem compileRange_integer (site : Site) (m : Mark) (w : IntWidth) (text : String) :
    compileRange site (.scalar m (.integer w)) text =
      match rangeFor? (.integer w) text with
      | some range => .ok (.within range)
      | none => .error (site.invalid .range (.malformedInterval text)) := rfl

end Rule

/-- What has no rule is an error. -/
theorem RuleKind.compile_range_eq_error_iff {site : Site} {m : Mark} {w : IntWidth}
    {text : String} : RuleKind.range.compile site (.scalar m (.integer w)) text =
        .error (site.invalid .range (.malformedInterval text)) ↔
      ¬ ∃ rule, RuleKind.range.compile site (.scalar m (.integer w)) text = .ok rule := by
  rw [compile, Rule.compileRange_integer]
  cases Rule.rangeFor? (.integer w) text <;> simp

section

variable {text : String} {i : Interval Numeral} (hw : i.Written text) {site : Site} {m : Mark}
  {w : IntWidth}

include hw

/-- The range of an integer type has integers as its ends if the interval is exact, else the
    nearest doubles. -/
theorem Interval.Written.rangeFor?_eq_some {range : NumberRange}
    (h : Rule.rangeFor? (.integer w) text = some range) :
    (i.Exact ∧ ∃ j, range = .integers j ∧ i.Matches (fun (n : Numeral) (x : ℤ) => n.value = x) j) ∨
      (¬ i.Exact ∧ ∃ j, range = .doubles j ∧ i.Matches (fun n x => x.Rounds n.value) j) := by
  unfold Rule.rangeFor? at h
  dsimp only at h
  split at h
  · rename_i j hj
    cases h
    exact .inl ⟨(hw.exists_integers?_iff.1 ⟨j, hj⟩).2, j, rfl, hw.matches_integers? hj⟩
  · rename_i hnone
    obtain ⟨j, hj, rfl⟩ := Option.map_eq_some_iff.1 h
    refine .inr ⟨fun hx => ?_, j, rfl, hw.matches_doubles? hj⟩
    obtain ⟨hend, -⟩ := hw.exists_doubles?_iff.1 ⟨j, hj⟩
    obtain ⟨j', hj'⟩ := hw.exists_integers?_iff.2 ⟨hend, hx⟩
    cases hnone.symm.trans hj'

/-- There is a range if there is an end, and the ends are in order when they are rounded. -/
theorem Interval.Written.exists_rangeFor?_iff :
    (∃ range, Rule.rangeFor? (.integer w) text = some range) ↔
      (i.min.isSome = true ∨ i.max.isSome = true) ∧
        ∀ a ∈ i.min, ∀ b ∈ i.max, ¬ InRoundedOrder false b.value a.value := by
  unfold Rule.rangeFor?
  dsimp only
  cases hi : integers? text with
  | some j =>
    -- ends in order stay so when they are rounded
    obtain ⟨hend, hx⟩ := hw.exists_integers?_iff.1 ⟨j, hi⟩
    exact iff_of_true ⟨_, rfl⟩ ⟨hend, fun a ha b hb h => (hx.ordered a ha b hb).not_gt h.1⟩
  | none =>
    rw [← hw.exists_doubles?_iff]
    simp only [Option.map_eq_some_iff]
    constructor
    · rintro ⟨_, j, hj, -⟩
      exact ⟨j, hj⟩
    · rintro ⟨j, hj⟩
      exact ⟨_, j, hj, rfl⟩

/-- **Which intervals are rules of an integer type.**  Those with an end, unless their ends are the
    wrong way round even when they are rounded. -/
theorem RuleKind.exists_compile_range_iff :
    (∃ rule, RuleKind.range.compile site (.scalar m (.integer w)) text = .ok rule) ↔
      (i.min.isSome = true ∨ i.max.isSome = true) ∧
        ∀ a ∈ i.min, ∀ b ∈ i.max, ¬ InRoundedOrder false b.value a.value := by
  rw [← hw.exists_rangeFor?_iff (w := w), compile, Rule.compileRange_integer]
  cases Rule.rangeFor? (.integer w) text <;> simp

/-- What a range says of an integer: it is reported unless the written interval admits it, where
    only an exact interval is compared without rounding. -/
theorem Interval.Written.faults_iff {range : NumberRange}
    (h : Rule.rangeFor? (.integer w) text = some range) (v : ℤ) :
    (i.Exact → (range.faults (.integer w v) ≠ [] ↔ ¬ i.Admits InOrder v)) ∧
      (¬ i.Exact → (range.faults (.integer w v) ≠ [] ↔ ¬ i.Admits InRoundedOrder v)) := by
  rcases hw.rangeFor?_eq_some h with ⟨hx, j, rfl, hj⟩ | ⟨hx, j, rfl, hj⟩
  · refine ⟨fun _ => ?_, fun hnot => absurd hx hnot⟩
    rw [← hj.contains_iff before_int (y := v) rfl]
    exact Rule.outside_ne_nil_iff
  · refine ⟨fun hexact => absurd hexact hx, fun _ => ?_⟩
    rw [← hj.contains_iff before_double (Binary.rounds_ofInt v)]
    exact Rule.outside_ne_nil_iff

/-- **When an integer is reported.**  If the interval is exact, or rounding keeps its ends apart
    from the integer, whatever is outside of the interval; else whatever is outside of it when all
    is rounded. -/
theorem RuleKind.faults_range_iff {rule : Rule}
    (hc : RuleKind.range.compile site (.scalar m (.integer w)) text = .ok rule) (v : ℤ) :
    (i.Exact → (rule.faults site.schema (.integer w v) ≠ [] ↔ ¬ i.Admits InOrder v)) ∧
      (¬ i.Exact → (rule.faults site.schema (.integer w v) ≠ [] ↔ ¬ i.Admits InRoundedOrder v)) ∧
      ((∀ a, a ∈ i.min ∨ a ∈ i.max → Layout.double.Merges a.value v → a.value = v) →
        (rule.faults site.schema (.integer w v) ≠ [] ↔ ¬ i.Admits InOrder v)) := by
  rw [RuleKind.compile] at hc
  obtain ⟨_, _, range, hty, -, hrange, rfl⟩ := Rule.compileRange_eq_ok.1 hc
  cases hty
  obtain ⟨hexact, hrounded⟩ := hw.faults_iff hrange v
  refine ⟨hexact, hrounded, fun hapart => ?_⟩
  by_cases hx : i.Exact
  · exact hexact hx
  · rw [← i.admits_rounded_iff hapart]
    exact hrounded hx

end

/-- A field of a row, for its rules. -/
def levelSite : Site :=
  let level : Field := ⟨"level", none, [], .scalar .plain (.integer .long), [], none⟩
  let row : BeanDef := ⟨"game.Row", none, none, [level], none, [level], [], [0], [0]⟩
  ⟨⟨[row], [], [], []⟩, row, level⟩

/-- Two and a half below zero. -/
def belowZero : Numeral :=
  ⟨.minus, ['2'], some ['5'], none, List.all_eq_true.1 rfl, List.all_eq_true.1 rfl, by decide⟩

theorem value_belowZero : belowZero.value = -5 / 2 := by
  have hdecimal : belowZero.decimal = ⟨25, -1⟩ := by decide
  rw [Numeral.value, hdecimal]
  norm_num [Decimal.value, Sign.apply, Sign.isMinus, belowZero]

/-- From two and a half below zero to forty, which is no longer in it. -/
def halfOpen : Interval Numeral := ⟨some belowZero, true, some (.ofInt 40), false⟩

theorem written_halfOpen : halfOpen.Written "[-2.5, 40)" :=
  .bracketed (by decide : _ = _ :: ("-2.5".toList ++ ',' :: " 40".toList ++ _)) (by decide)
    (by decide)

theorem RuleKind.faults_range_halfOpen :
    let rule : Rule :=
      .within (.doubles ⟨some (.ofRatio true ⟨5, 2⟩), true, some (.ofInt 40), false⟩)
    halfOpen.Written "[-2.5, 40)" ∧ ¬ halfOpen.Exact ∧
      RuleKind.range.compile levelSite (.scalar .plain (.integer .byte)) "[-2.5, 40)" = .ok rule ∧
      (∀ a, a ∈ halfOpen.min ∨ a ∈ halfOpen.max →
        Layout.double.Merges a.value (40 : ℤ) → a.value = (40 : ℤ)) ∧
      (rule.faults levelSite.schema (.integer .byte 40) ≠ [] ↔
        ¬ halfOpen.Admits InRoundedOrder (40 : ℤ)) ∧
      (rule.faults levelSite.schema (.integer .byte 40) ≠ [] ↔
        ¬ halfOpen.Admits InOrder (40 : ℤ)) := by
  intro rule
  have hcompile : RuleKind.range.compile levelSite (.scalar .plain (.integer .byte)) "[-2.5, 40)" =
      .ok rule := rfl
  have hexact : ¬ halfOpen.Exact := fun h => absurd (h.min _ rfl).1 (by decide)
  have hapart : ∀ a, a ∈ halfOpen.min ∨ a ∈ halfOpen.max →
      Layout.double.Merges a.value (40 : ℤ) → a.value = (40 : ℤ) := by
    rintro a (ha | ha) hm
    · cases ha
      rw [value_belowZero, Int.cast_ofNat] at hm
      have hlow : Layout.double.nearestKey (-5 / 2) ≤ 0 :=
        (Layout.nearestKey_mono (by norm_num)).trans_eq Layout.nearestKey_zero
      have hhigh : 0 < Layout.double.nearestKey 40 := by decide
      exact absurd (hm ▸ hlow) hhigh.not_ge
    · cases ha
      exact Numeral.value_ofInt 40
  obtain ⟨-, hrounded, hkept⟩ := faults_range_iff written_halfOpen hcompile 40
  exact ⟨written_halfOpen, hexact, hcompile, hapart, hrounded hexact, hkept hapart⟩

/-- Half a step above an integer that doubles do not tell from the next one. -/
def beyond : Numeral :=
  ⟨.unsigned, "9007199254740992".toList, some ['5'], none, List.all_eq_true.1 rfl,
    List.all_eq_true.1 rfl, by decide⟩

theorem value_beyond : beyond.value = 9007199254740992 + 1 / 2 := by
  have hdecimal : beyond.decimal = ⟨90071992547409925, -1⟩ := by decide
  rw [Numeral.value, hdecimal]
  norm_num [Decimal.value, Sign.apply, Sign.isMinus, beyond]

/-- The next integer is above, but it is reported. -/
theorem not_faults_range_beyond :
    let rule : Rule := .within (.doubles ⟨some (.ofInt 9007199254740992), false, none, true⟩)
    Interval.Written "(9007199254740992.5,]" ⟨some beyond, false, none, true⟩ ∧
      RuleKind.range.compile levelSite (.scalar .plain (.integer .long)) "(9007199254740992.5,]" =
        .ok rule ∧
      Interval.Admits InOrder ⟨some beyond, false, none, true⟩ (9007199254740993 : ℤ) ∧
      rule.faults levelSite.schema (.integer .long 9007199254740993) ≠ [] := by
  have hwritten : Interval.Written "(9007199254740992.5,]" ⟨some beyond, false, none, true⟩ :=
    .bracketed (by decide : _ = _ :: (beyond.chars ++ ',' :: [] ++ _)) (by decide) (by decide)
  refine ⟨hwritten, rfl, ⟨?_, by simp⟩, by decide⟩
  intro a ha
  cases ha
  show beyond.value < (9007199254740993 : ℤ)
  rw [value_beyond]
  norm_num

/-! ## Intervals with their ends the wrong way round -/

/-- **When an interval with its ends the wrong way round is an error.**  It has no rule unless
    rounding makes its ends one, which it does to no two integers of 53 bits. -/
theorem RuleKind.compile_reversed_iff {text : String} {i : Interval Numeral} (hw : i.Written text)
    {a b : Numeral} (ha : i.min = some a) (hb : i.max = some b) (hlt : b.value < a.value)
    (site : Site) (m : Mark) (w : IntWidth) :
    (RuleKind.range.compile site (.scalar m (.integer w)) text =
        .error (site.invalid .range (.malformedInterval text)) ↔
      ¬ Layout.double.Merges b.value a.value) ∧
    ((∃ rule, RuleKind.range.compile site (.scalar m (.integer w)) text = .ok rule) ↔
      Layout.double.Merges b.value a.value) ∧
    ∀ x y : ℤ, a.value = x → b.value = y → x.natAbs < 2 ^ 53 → y.natAbs < 2 ^ 53 →
      RuleKind.range.compile site (.scalar m (.integer w)) text =
        .error (site.invalid .range (.malformedInterval text)) := by
  have horder : InRoundedOrder false b.value a.value ↔ ¬ Layout.double.Merges b.value a.value :=
    and_iff_right hlt
  have hrule : (∃ rule, compile site (.scalar m (.integer w)) text .range = .ok rule) ↔
      Layout.double.Merges b.value a.value := by
    rw [exists_compile_range_iff hw, ha, hb, ← not_iff_not, ← horder]
    simp
  rw [compile_range_eq_error_iff, hrule]
  refine ⟨Iff.rfl, Iff.rfl, fun x y hx hy hxs hys hm => ?_⟩
  rw [hx, hy] at hlt hm
  exact (Int.cast_lt.1 hlt).ne (Layout.eq_of_merges_intCast hys hxs hm)

/-- The interval of what is at least the one integer and at most the other. -/
def fromTo (a b : ℤ) : Interval Numeral := ⟨some (.ofInt a), true, some (.ofInt b), true⟩

theorem RuleKind.compile_reversed_fromTo :
    (fromTo 9007199254740994 9007199254740992).Written "[9007199254740994,9007199254740992]" ∧
    (Numeral.ofInt 9007199254740992).value < (Numeral.ofInt 9007199254740994).value ∧
    RuleKind.range.compile levelSite (.scalar .plain (.integer .long))
        "[9007199254740994,9007199254740992]" =
      .error (levelSite.invalid .range
        (.malformedInterval "[9007199254740994,9007199254740992]")) := by
  have hwritten : (fromTo 9007199254740994 9007199254740992).Written
      "[9007199254740994,9007199254740992]" :=
    .bracketed (by decide) (Interval.isEnd_chars _) (Interval.isEnd_chars _)
  have hlt : (Numeral.ofInt 9007199254740992).value < (Numeral.ofInt 9007199254740994).value := by
    rw [Numeral.value_ofInt, Numeral.value_ofInt]
    norm_num
  obtain ⟨herror, -, -⟩ := compile_reversed_iff hwritten rfl rfl hlt levelSite .plain .long
  refine ⟨hwritten, hlt, herror.2 ?_⟩
  rw [Numeral.value_ofInt, Numeral.value_ofInt]
  decide

/-- Two integers of 64 bits that doubles do not tell apart. -/
theorem not_compile_reversed_fromTo :
    (fromTo 9007199254740993 9007199254740992).Written "[9007199254740993,9007199254740992]" ∧
    (Numeral.ofInt 9007199254740993).IsInt64 ∧ (Numeral.ofInt 9007199254740992).IsInt64 ∧
    (Numeral.ofInt 9007199254740992).value < (Numeral.ofInt 9007199254740993).value ∧
    RuleKind.range.compile levelSite (.scalar .plain (.integer .long))
        "[9007199254740993,9007199254740992]" =
      .ok (.within (.doubles ⟨some (.ofInt 9007199254740992), true,
        some (.ofInt 9007199254740992), true⟩)) := by
  refine ⟨.bracketed (by decide) (Interval.isEnd_chars _) (Interval.isEnd_chars _),
    Numeral.isInt64_ofInt (by decide) (by decide), Numeral.isInt64_ofInt (by decide) (by decide),
    ?_, rfl⟩
  rw [Numeral.value_ofInt, Numeral.value_ofInt]
  norm_num

end GameConfig
