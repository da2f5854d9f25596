import GameConfig.Proofs.Emit.Placement
import GameConfig.Proofs.Load.Step
import GameConfig.Proofs.Rule.Compile
import GameConfig.Proofs.Rule.Rounded

/-
  Ranges in schemas and in rules.

  The keywords of a range are its ends as doubles, whatever the type.  A schema of
  integers has them beside the limits of its width, except that the keyword for an
  end that belongs to the range takes the place of the limit on its side.

  * `Validator.accepts_numberSchema_iff`: schemas of numbers, keyword by keyword;
  * `accepts_ranged_iff`: which integers the schema of a type with a range accepts;
  * `RuleKind.accepts_iff_faults_ranged`: where the schema says what loading and the rule say.
-/

namespace GameConfig

/-! ## Numbers -/

namespace Json.Number

/-- The value of a number; zero for what is not finite. -/
def toRat : Number → ℚ
  | .int i => i
  | .double x => x.toRat

theorem den_fraction_pos (a : Number) : 0 < a.fraction.2 := by
  cases a with
  | int i => exact Nat.one_pos
  | double x => exact Binary.den_magnitude_pos x

theorem toRat_eq (a : Number) : a.toRat = a.fraction.1 / a.fraction.2 := by
  cases a with
  | int i => simp [toRat, fraction]
  | double x =>
    unfold toRat fraction Binary.toRat Ratio.value
    dsimp only
    split
    · push_cast
      ring
    · push_cast
      rfl

theorem le_iff {a b : Number} : a.le b = true ↔ a.toRat ≤ b.toRat := by
  have ha : (0 : ℚ) < a.fraction.2 := by exact_mod_cast a.den_fraction_pos
  have hb : (0 : ℚ) < b.fraction.2 := by exact_mod_cast b.den_fraction_pos
  rw [toRat_eq, toRat_eq, div_le_div_iff₀ ha hb, Number.le, decide_eq_true_eq]
  exact_mod_cast Iff.rfl

theorem lt_iff {a b : Number} : a.lt b = true ↔ a.toRat < b.toRat := by
  have ha : (0 : ℚ) < a.fraction.2 := by exact_mod_cast a.den_fraction_pos
  have hb : (0 : ℚ) < b.fraction.2 := by exact_mod_cast b.den_fraction_pos
  rw [toRat_eq, toRat_eq, div_lt_div_iff₀ ha hb, Number.lt, decide_eq_true_eq]
  exact_mod_cast Iff.rfl

end Json.Number

/-! ## Schemas of numbers -/

/-- The keywords about the type and the bounds of numbers. -/
def numberKeywords : List String :=
  ["type", "minimum", "maximum", "exclusiveMinimum", "exclusiveMaximum"]

/-- An object of such keywords, each of them there once at most. -/
def Json.IsNumberSchema (o : Json) : Prop :=
  ∃ ms : Assoc Json, o = .object ms ∧ (Assoc.keys ms).Nodup ∧
    ∀ k ∈ Assoc.keys ms, k ∈ numberKeywords

/-- The argument of a keyword is a number that the integer is compared with as demanded. -/
def Json.Bounds (ok : Json.Number → Json.Number → Bool) (n : ℤ) (arg : Json) : Prop :=
  ∃ b, arg = .number b ∧ ok b (.int n) = true

namespace Json.IsNumberSchema

variable {o : Json}

theorem set (h : o.IsNumberSchema) {key : String} (hkey : key ∈ numberKeywords) (v : Json) :
    (o.set key v).IsNumberSchema := by
  obtain ⟨ms, rfl, hnodup, hkeys⟩ := h
  refine ⟨_, rfl, Assoc.nodup_keys_insert hnodup, ?_⟩
  intro k hk
  rw [Assoc.keys_insert] at hk
  split at hk
  · exact hkeys k hk
  · rcases List.mem_append.1 hk with hk | hk
    · exact hkeys k hk
    · rwa [List.mem_singleton.1 hk]

theorem setAll (h : o.IsNumberSchema) {es : List (String × Json)}
    (hes : ∀ e ∈ es, e.1 ∈ numberKeywords) : (o.setAll es).IsNumberSchema := by
  induction es generalizing o with
  | nil => exact h
  | cons e es ih =>
    rw [List.forall_mem_cons] at hes
    exact ih (h.set hes.1 e.2) hes.2

theorem flat (h : o.IsNumberSchema) : o.Flat := by
  obtain ⟨ms, rfl, hnodup, hkeys⟩ := h
  have hapart : ∀ k ∈ contextKeys, k ∉ numberKeywords := by decide
  exact ⟨⟨ms, rfl, hnodup⟩, fun k hk => Assoc.find?_eq_none fun hmem => hapart k hk (hkeys k hmem)⟩

theorem mem_of_member? (h : o.IsNumberSchema) {key : String} {arg : Json}
    (harg : o.member? key = some arg) : key ∈ numberKeywords := by
  obtain ⟨ms, rfl, -, hkeys⟩ := h
  exact hkeys key (List.mem_map_of_mem (Assoc.mem_of_find? harg))

end Json.IsNumberSchema

namespace Validator

variable {j : Validator} {n : ℤ}

theorem meets_bound_iff {ok : Json.Number → Json.Number → Bool} {arg : Json} :
    (∃ x, Keyword.bound ok (.ofInt n) arg = some x ∧ j.Meets x) ↔ arg.Bounds ok n := by
  unfold Json.Bounds Keyword.bound Json.ofInt
  cases arg <;> simp

/-- **A schema of numbers accepts an integer, keyword by keyword.** -/
theorem accepts_numberSchema_iff {o : Json} (ho : o.IsNumberSchema) :
    j.Accepts o (.ofInt n) ↔
      (∀ arg, o.member? "type" = some arg →
        ∃ x, Keyword.type (.ofInt n) arg = some x ∧ j.Meets x) ∧
      ((∀ arg, o.member? "minimum" = some arg → arg.Bounds (fun b n => b.le n) n) ∧
        ∀ arg, o.member? "exclusiveMinimum" = some arg → arg.Bounds (fun b n => b.lt n) n) ∧
      ((∀ arg, o.member? "maximum" = some arg → arg.Bounds (fun b n => n.le b) n) ∧
        ∀ arg, o.member? "exclusiveMaximum" = some arg → arg.Bounds (fun b n => n.lt b) n) := by
  rw [accepts_flat_iff ho.flat]
  constructor
  · intro h
    refine ⟨fun arg harg => h _ _ harg, ⟨?_, ?_⟩, ?_, ?_⟩
    all_goals
      intro arg harg
      exact meets_bound_iff.1 (h _ _ harg)
  · rintro ⟨htype, ⟨hmin, hmin'⟩, hmax, hmax'⟩ key arg harg
    have hkey := ho.mem_of_member? harg
    simp only [numberKeywords, List.mem_cons, List.not_mem_nil, or_false] at hkey
    rcases hkey with rfl | rfl | rfl | rfl | rfl
    · exact htype arg harg
    · exact meets_bound_iff.2 (hmin arg harg)
    · exact meets_bound_iff.2 (hmax arg harg)
    · exact meets_bound_iff.2 (hmin' arg harg)
    · exact meets_bound_iff.2 (hmax' arg harg)

end Validator

/-! ## Types with a range -/

/-- The schema of the width has its limits. -/
def IntWidth.isLimited : IntWidth → Bool
  | byte | short => true
  | int | long => false

/-- A limit of the width, where its schema has them. -/
def IntWidth.limit? (w : IntWidth) (limit : ℤ) : Option ℤ := if w.isLimited then some limit else none

theorem IntWidth.forall_limit? {w : IntWidth} {limit : ℤ} {p : ℤ → Prop} :
    (∀ k ∈ w.limit? limit, p k) ↔ (w.isLimited = true → p limit) := by
  unfold limit?
  split <;> simp [*]

/-- The keywords of a range, from its ends. -/
def rangeKeywords (i : Interval Double) : List (String × Json) :=
  Validator.optional (if i.minIn then "minimum" else "exclusiveMinimum") (i.min.map .ofDouble) ++
    Validator.optional (if i.maxIn then "maximum" else "exclusiveMaximum") (i.max.map .ofDouble)

theorem find?_rangeKeywords (i : Interval Double) :
    Assoc.find? "minimum" (rangeKeywords i).reverse =
      (if i.minIn then i.min.map .ofDouble else none) ∧
    Assoc.find? "exclusiveMinimum" (rangeKeywords i).reverse =
      (if i.minIn then none else i.min.map .ofDouble) ∧
    Assoc.find? "maximum" (rangeKeywords i).reverse =
      (if i.maxIn then i.max.map .ofDouble else none) ∧
    Assoc.find? "exclusiveMaximum" (rangeKeywords i).reverse =
      (if i.maxIn then none else i.max.map .ofDouble) := by
  obtain ⟨min, minIn, max, maxIn⟩ := i
  cases min <;> cases minIn <;> cases max <;> cases maxIn <;>
    simp [rangeKeywords, Validator.optional, Assoc.find?]

/-- The keywords for bounds of numbers. -/
def boundKeywords : List String :=
  ["minimum", "exclusiveMinimum", "maximum", "exclusiveMaximum"]

theorem mem_rangeKeywords_iff {i : Interval Double} {e : String × Json} :
    e ∈ rangeKeywords i ↔
      (e.1 = (if i.minIn then "minimum" else "exclusiveMinimum") ∧
        ∃ x ∈ i.min, Json.ofDouble x = e.2) ∨
      (e.1 = (if i.maxIn then "maximum" else "exclusiveMaximum") ∧
        ∃ x ∈ i.max, Json.ofDouble x = e.2) := by
  rw [rangeKeywords, List.mem_append, mem_optional, mem_optional, Option.map_eq_some_iff,
    Option.map_eq_some_iff]
  rfl

theorem mem_boundKeywords {i : Interval Double} {e : String × Json} (h : e ∈ rangeKeywords i) :
    e.1 ∈ boundKeywords := by
  rcases mem_rangeKeywords_iff.1 h with ⟨hname, -⟩ | ⟨hname, -⟩
  · rw [hname]
    split <;> decide
  · rw [hname]
    split <;> decide

theorem mem_rangeKeywords {i : Interval Double} {e : String × Json} (h : e ∈ rangeKeywords i) :
    e.1 ∈ numberKeywords ∧ e.1 ≠ "type" := by
  have hname : ∀ k ∈ boundKeywords, k ∈ numberKeywords ∧ k ≠ "type" := by decide
  exact hname _ (mem_boundKeywords h)

/-! ### One side -/

section

variable {ok ok' : Json.Number → Json.Number → Bool} {p : Bool → ℚ → Prop} {n : ℤ}

theorem bounds_ofDouble {x : Double} :
    (Json.ofDouble x).Bounds ok n ↔ x.isFinite = true ∧ ok (.double x) (.int n) = true := by
  unfold Json.Bounds Json.ofDouble
  split
  · rename_i hfin
    simp [hfin]
  · rename_i hfin
    simp [hfin]

theorem bounds_ofInt {k : ℤ} : (Json.ofInt k).Bounds ok n ↔ ok (.int k) (.int n) = true := by
  simp [Json.Bounds, Json.ofInt]

/-- The keywords on one side of a range demand its end and, unless the end belongs to the range, the
    limit of the width. -/
theorem side_iff (hclosed : ∀ b : Json.Number, ok b (.int n) = true ↔ p true b.toRat)
    (hopen : ∀ b : Json.Number, ok' b (.int n) = true ↔ p false b.toRat) {e : Option Double}
    {closed : Bool} {limit : Option ℤ} :
    ((∀ arg, (if closed then e.map Json.ofDouble else none).or (limit.map .ofInt) = some arg →
        arg.Bounds ok n) ∧
      ∀ arg, (if closed then none else e.map Json.ofDouble) = some arg → arg.Bounds ok' n) ↔
    (∀ x ∈ e, x.isFinite = true ∧ p closed x.toRat) ∧
      ∀ k ∈ limit, (e.isSome = true ∧ closed = true) ∨ p true k := by
  cases closed with
  | true =>
    cases e with
    | none => simp [bounds_ofInt, hclosed, Json.Number.toRat]
    | some x => simp [bounds_ofDouble, hclosed, Json.Number.toRat]
  | false =>
    cases e with
    | none => simp [bounds_ofInt, hclosed, Json.Number.toRat]
    | some x =>
      simp [bounds_ofInt, bounds_ofDouble, hclosed, hopen, Json.Number.toRat, and_comm]

variable {e : Option Double} {closed : Bool} {limit : Option ℤ}

theorem low_iff :
    ((∀ arg, (if closed then e.map Json.ofDouble else none).or (limit.map .ofInt) = some arg →
        arg.Bounds (fun b n => b.le n) n) ∧
      ∀ arg, (if closed then none else e.map Json.ofDouble) = some arg →
        arg.Bounds (fun b n => b.lt n) n) ↔
    (∀ x ∈ e, x.isFinite = true ∧ InOrder closed x.toRat n) ∧
      ∀ k ∈ limit, (e.isSome = true ∧ closed = true) ∨ k ≤ n := by
  have hcast : ∀ k : ℤ, InOrder true k n ↔ k ≤ n := fun k => Int.cast_le
  simp only [← hcast]
  exact side_iff (p := fun closed q => InOrder closed q n) (fun b => Json.Number.le_iff)
    fun b => Json.Number.lt_iff

theorem high_iff :
    ((∀ arg, (if closed then e.map Json.ofDouble else none).or (limit.map .ofInt) = some arg →
        arg.Bounds (fun b n => n.le b) n) ∧
      ∀ arg, (if closed then none else e.map Json.ofDouble) = some arg →
        arg.Bounds (fun b n => n.lt b) n) ↔
    (∀ x ∈ e, x.isFinite = true ∧ InOrder closed n x.toRat) ∧
      ∀ k ∈ limit, (e.isSome = true ∧ closed = true) ∨ n ≤ k := by
  have hcast : ∀ k : ℤ, InOrder true n k ↔ n ≤ k := fun k => Int.cast_le
  simp only [← hcast]
  exact side_iff (p := fun closed q => InOrder closed n q) (fun b => Json.Number.le_iff)
    fun b => Json.Number.lt_iff

end

/-! ### Both sides -/

section

variable {s : Schema} {w : IntWidth} {nullable : Bool} {argument : String} {i : Interval Double}
  {j : Validator} {n : ℤ}

theorem isNumberSchema_integer (w : IntWidth) : (Scalar.integer w).schemaOf.IsNumberSchema := by
  cases w <;> exact ⟨_, rfl, by decide, by decide⟩

theorem member?_integer (w : IntWidth) :
    (Scalar.integer w).schemaOf.member? "minimum" = (w.limit? w.least).map .ofInt ∧
      (Scalar.integer w).schemaOf.member? "exclusiveMinimum" = none ∧
      (Scalar.integer w).schemaOf.member? "maximum" = (w.limit? w.greatest).map .ofInt ∧
      (Scalar.integer w).schemaOf.member? "exclusiveMaximum" = none := by
  cases w <;> exact ⟨rfl, rfl, rfl, rfl⟩

/-- The type of integers of a width with a range. -/
def Ty.ranged (nullable : Bool) (w : IntWidth) (argument : String) : Ty :=
  .scalar ⟨nullable, [("range", argument)]⟩ (.integer w)

/-- The schema is that of the width with the keywords of the range set. -/
theorem schemaOf_ranged (hi : doubles? argument = some i) :
    (Ty.ranged nullable w argument).schemaOf s =
      if nullable then withNull "integer" ((Scalar.integer w).schemaOf.setAll (rangeKeywords i))
      else (Scalar.integer w).schemaOf.setAll (rangeKeywords i) := by
  have hshapes : (Ty.ranged nullable w argument).Shapes "integer" (Scalar.integer w).schemaOf := by
    cases w <;> exact ⟨rfl, rfl, nofun⟩
  have hkeywords : (Ty.ranged nullable w argument).keywords none "range" argument =
      rangeKeywords i := by
    simp only [Ty.keywords, hi]
    rfl
  have htag : applyTag (Ty.ranged nullable w argument) "range" argument
      (Scalar.integer w).schemaOf = (Scalar.integer w).schemaOf.setAll (rangeKeywords i) := by
    rw [applyTag_eq, ← hkeywords]
    rfl
  have hafter : (Ty.ranged nullable w argument).Shapes "integer"
      (applyTag (Ty.ranged nullable w argument) "range" argument (Scalar.integer w).schemaOf) :=
    hshapes.afterTag rfl
  rw [← htag, ← hafter.wrapNull_eq]
  rfl

theorem isNumberSchema_ranged (hi : doubles? argument = some i) :
    ((Ty.ranged nullable w argument).schemaOf s).IsNumberSchema := by
  have hset : ((Scalar.integer w).schemaOf.setAll (rangeKeywords i)).IsNumberSchema :=
    (isNumberSchema_integer w).setAll fun e he => (mem_rangeKeywords he).1
  rw [schemaOf_ranged hi]
  split
  · exact hset.set (by decide) _
  · exact hset

/-- Any integer is of the type that the schema names. -/
theorem meets_type_ranged (hi : doubles? argument = some i) {arg : Json}
    (harg : ((Ty.ranged nullable w argument).schemaOf s).member? "type" = some arg) :
    ∃ x, Keyword.type (.ofInt n) arg = some x ∧ j.Meets x := by
  have hbase : ((Scalar.integer w).schemaOf.setAll (rangeKeywords i)).member? "type" =
      some (.string "integer") := by
    rw [Json.member?_setAll_of_not_mem fun hmem => ?_]
    · cases w <;> rfl
    · obtain ⟨e, he, hkey⟩ := List.mem_map.1 hmem
      exact (mem_rangeKeywords he).2 hkey
  have hwhole : (Json.ofInt n).hasType "integer" = true := by
    simp [Json.hasType, Json.ofInt, Json.Number.isWhole, Json.Number.fraction]
  rw [schemaOf_ranged hi] at harg
  split at harg
  · obtain ⟨ms, hms⟩ := Json.isObject_of_member? hbase
    rw [hms] at harg
    cases (Assoc.find?_insert_self ..).symm.trans harg
    exact ⟨_, rfl, by simp [hwhole]⟩
  · cases hbase.symm.trans harg
    exact ⟨_, rfl, by simp [hwhole]⟩

/-- The keywords of the range come before the limits of the width. -/
theorem member?_ranged (hi : doubles? argument = some i) {name : String} (hname : name ≠ "type") :
    ((Ty.ranged nullable w argument).schemaOf s).member? name =
      (Assoc.find? name (rangeKeywords i).reverse).or
        ((Scalar.integer w).schemaOf.member? name) := by
  have hobject : (Scalar.integer w).schemaOf.IsObject := by cases w <;> exact ⟨_, rfl⟩
  rw [← Json.member?_setAll hobject, schemaOf_ranged hi]
  split
  · exact Json.member?_set_of_ne hname _
  · rfl

/-- **Which integers the schema of a type with a range accepts**: those between the ends, if these
    are finite, and within the limits of the width on the sides that have no end, or an open one. -/
theorem accepts_ranged_iff (hi : doubles? argument = some i) :
    j.Accepts ((Ty.ranged nullable w argument).schemaOf s) (.ofInt n) ↔
      i.IsFinite ∧ i.Encloses n ∧ (w.isLimited = true →
        ((i.min.isSome = true ∧ i.minIn = true) ∨ w.least ≤ n) ∧
          ((i.max.isSome = true ∧ i.maxIn = true) ∨ n ≤ w.greatest)) := by
  obtain ⟨hmin, hmin', hmax, hmax'⟩ := find?_rangeKeywords i
  obtain ⟨hleast, hleast', hgreatest, hgreatest'⟩ := member?_integer w
  rw [Validator.accepts_numberSchema_iff (isNumberSchema_ranged hi),
    and_iff_right fun arg => meets_type_ranged hi, member?_ranged hi (by decide),
    member?_ranged hi (by decide), member?_ranged hi (by decide), member?_ranged hi (by decide),
    hmin, hmin', hmax, hmax', hleast, hleast', hgreatest, hgreatest', Option.or_none,
    Option.or_none, low_iff, high_iff, IntWidth.forall_limit?, IntWidth.forall_limit?]
  constructor
  · rintro ⟨⟨hmin, hleast⟩, hmax, hgreatest⟩
    refine ⟨?_, ⟨fun x hx => (hmin x hx).2, fun x hx => (hmax x hx).2⟩, ?_⟩
    · rintro x (hx | hx)
      · exact (hmin x hx).1
      · exact (hmax x hx).1
    · intro hlimited
      exact ⟨hleast hlimited, hgreatest hlimited⟩
  · rintro ⟨hfin, ⟨hmin, hmax⟩, hlimits⟩
    refine ⟨⟨fun x hx => ⟨hfin x (.inl hx), hmin x hx⟩, fun h => (hlimits h).1⟩, ?_⟩
    exact ⟨fun x hx => ⟨hfin x (.inr hx), hmax x hx⟩, fun h => (hlimits h).2⟩

end

/-! ## The rule -/

section

variable {l : Loader} {nullable : Bool} {w : IntWidth} {argument : String} {n : ℤ}

theorem load_ranged_eq_ok {d : Datum} : l.load (.ranged nullable w argument) (.ofInt n) = .ok d ↔
    Numeral.fitsInt64 n = true ∧ w.holds n = true ∧ d = .integer w n := by
  rw [Ty.ranged, Loader.load_scalar, Loader.scalar, Loader.integer_eq_ok]
  constructor
  · rintro ⟨i, hi, hw, rfl⟩
    unfold Json.int64? Json.ofInt at hi
    dsimp only at hi
    split at hi
    · rename_i hfits
      cases hi
      exact ⟨hfits, hw, rfl⟩
    · cases hi
  · rintro ⟨hfits, hw, rfl⟩
    exact ⟨n, if_pos hfits, hw, rfl⟩

/-- A limited width holds what loads as it, and nothing else. -/
theorem lt_least_or_greatest_lt (hlimited : w.isLimited = true)
    (h : ∀ d, l.load (.ranged nullable w argument) (.ofInt n) ≠ .ok d) :
    n < w.least ∨ w.greatest < n := by
  by_contra hin
  rw [not_or, not_lt, not_lt] at hin
  have hholds : w.holds n = true := by simp [IntWidth.holds, hin]
  have hfits : Numeral.fitsInt64 n = true := by
    rw [Numeral.fitsInt64, Bool.and_eq_true, decide_eq_true_eq, decide_eq_true_eq]
    unfold Numeral.minInt64 Numeral.maxInt64
    unfold IntWidth.least IntWidth.greatest at hin
    cases w with
    | byte => dsimp only at hin; omega
    | short => dsimp only at hin; omega
    | int => cases hlimited
    | long => cases hlimited
  exact h _ (load_ranged_eq_ok.2 ⟨hfits, hholds, rfl⟩)

/-- **Where the schema of an integer type with a range says what loading and the rule say.**  If
    the ends are finite, an integer that loads is accepted if and only if the rule does not report
    it, unless an end is the double that it is rounded to.  An integer that is beyond a limited
    width is accepted if it is between the ends, and that on its side belongs to the range. -/
theorem RuleKind.accepts_iff_faults_ranged {b : BeanDef} {f : Field} {rule : Rule}
    (hc : RuleKind.range.compile ⟨l.schema, b, f⟩ (.ranged nullable w argument) argument = .ok rule)
    (j : Validator) : ∃ i, doubles? argument = some i ∧
      (∀ n d, l.load (.ranged nullable w argument) (.ofInt n) = .ok d →
        i.IsFinite → i.KeepsApart n →
          (j.Accepts ((Ty.ranged nullable w argument).schemaOf l.schema) (.ofInt n) ↔
            rule.faults l.schema d = [])) ∧
      (w.isLimited = true → ∀ n,
        (∀ d, l.load (.ranged nullable w argument) (.ofInt n) ≠ .ok d) →
          (j.Accepts ((Ty.ranged nullable w argument).schemaOf l.schema) (.ofInt n) ↔
            i.IsFinite ∧ i.Encloses n ∧
              ((n < w.least ∧ i.min.isSome = true ∧ i.minIn = true) ∨
                (w.greatest < n ∧ i.max.isSome = true ∧ i.maxIn = true)))) ∧
      (¬ i.IsFinite → ∀ n,
        ¬ j.Accepts ((Ty.ranged nullable w argument).schemaOf l.schema) (.ofInt n)) := by
  rw [RuleKind.compile] at hc
  obtain ⟨_, _, range, hty, -, hrange, rfl⟩ := Rule.compileRange_eq_ok.1 hc
  cases hty
  obtain ⟨i, hi, hfaults⟩ := Rule.exists_faults_range_iff hrange
  refine ⟨i, hi, ?_, ?_, ?_⟩
  · intro n d hload hfin hapart
    obtain ⟨-, hholds, rfl⟩ := load_ranged_eq_ok.1 hload
    rw [IntWidth.holds, Bool.and_eq_true, decide_eq_true_eq, decide_eq_true_eq] at hholds
    rw [accepts_ranged_iff hi, show (Rule.within range).faults l.schema _ = range.faults _ from rfl,
      hfaults n hfin hapart]
    constructor
    · rintro ⟨-, hin, -⟩
      exact hin
    · intro hin
      exact ⟨hfin, hin, fun _ => ⟨.inr hholds.1, .inr hholds.2⟩⟩
  · intro hlimited n hrefused
    have hbeyond := lt_least_or_greatest_lt hlimited hrefused
    have hle : w.least ≤ w.greatest := by cases w <;> decide
    rw [accepts_ranged_iff hi]
    refine and_congr_right fun _ => and_congr_right fun _ => ?_
    constructor
    · intro hlimits
      obtain ⟨hlow, hhigh⟩ := hlimits hlimited
      rcases hbeyond with hlt | hgt
      · exact .inl ⟨hlt, hlow.resolve_right (by omega)⟩
      · exact .inr ⟨hgt, hhigh.resolve_right (by omega)⟩
    · rintro (⟨hlt, hclosed⟩ | ⟨hgt, hclosed⟩) -
      · exact ⟨.inl hclosed, .inr (by omega)⟩
      · exact ⟨.inr (by omega), .inl hclosed⟩
  · intro hfin n haccepts
    exact hfin ((accepts_ranged_iff hi).1 haccepts).1

end

/-- A loader without beans and enums. -/
def plainLoader : Loader := ⟨.empty, none⟩

/-- A field of a type. -/
def fieldOf (ty : Ty) : Field := ⟨"level", none, [], ty, [], none⟩

/-- A validator without definitions, for which no pattern has a match. -/
def plainValidator : Validator := ⟨.null, fun _ _ => false⟩

/-- Thirty-nine is below the open end; what is beyond it is not accepted, even if it is no byte. -/
theorem RuleKind.accepts_iff_faults_ranged_byte :
    let ty : Ty := .ranged true .byte "[3,40)"
    let rule : Rule := .within (.integers ⟨some 3, true, some 40, false⟩)
    let i : Interval Double := ⟨some (.ofInt 3), true, some (.ofInt 40), false⟩
    RuleKind.range.compile ⟨.empty, default, fieldOf ty⟩ ty "[3,40)" = .ok rule ∧
      doubles? "[3,40)" = some i ∧ i.IsFinite ∧ i.KeepsApart 39 ∧
      plainLoader.load ty (.ofInt 39) = .ok (.integer .byte 39) ∧
      (∀ d, plainLoader.load ty (.ofInt 300) ≠ .ok d) ∧
      plainValidator.Accepts (ty.schemaOf .empty) (.ofInt 39) ∧
      ¬ plainValidator.Accepts (ty.schemaOf .empty) (.ofInt 300) := by
  intro ty rule i
  have hcompile : RuleKind.range.compile ⟨.empty, default, fieldOf ty⟩ ty "[3,40)" = .ok rule :=
    rfl
  have hread : doubles? "[3,40)" = some i := rfl
  have hfin : i.IsFinite := by
    rintro x (hx | hx)
    · cases hx
      rfl
    · cases hx
      rfl
  have hapart : i.KeepsApart 39 := .inl (by decide)
  have hload : plainLoader.load ty (.ofInt 39) = .ok (.integer .byte 39) := rfl
  have hrefused : ∀ d, plainLoader.load ty (.ofInt 300) ≠ .ok d := by
    intro d hd
    cases (load_ranged_eq_ok.1 hd).2.1
  obtain ⟨i', hi', hloaded, hbeyond, -⟩ :=
    RuleKind.accepts_iff_faults_ranged (l := plainLoader) hcompile plainValidator
  obtain rfl : i = i' := Option.some.inj (hread.symm.trans hi')
  refine ⟨hcompile, hread, hfin, hapart, hload, hrefused, ?_, ?_⟩
  · exact (hloaded 39 _ hload hfin hapart).2 rfl
  · intro haccepts
    obtain ⟨-, -, ⟨hlt, -⟩ | ⟨-, -, hclosed⟩⟩ := (hbeyond rfl 300 hrefused).1 haccepts
    · cases hlt
    · cases hclosed

/-- The greatest value of a range takes the place of the limit of bytes, and a least value of 64
    bits is rounded. -/
theorem not_accepts_iff_faults_ranged :
    let byte : Ty := .ranged false .byte "[,300]"
    let long : Ty := .ranged false .long "[9007199254740993,]"
    let above : Rule := .within (.integers ⟨some 9007199254740993, true, none, true⟩)
    (RuleKind.range.compile ⟨.empty, default, fieldOf byte⟩ byte "[,300]" =
        .ok (.within (.integers ⟨none, true, some 300, true⟩)) ∧
      (∀ d, plainLoader.load byte (.ofInt 256) ≠ .ok d) ∧
      plainValidator.Accepts (byte.schemaOf .empty) (.ofInt 256)) ∧
    RuleKind.range.compile ⟨.empty, default, fieldOf long⟩ long "[9007199254740993,]" =
        .ok above ∧
      plainLoader.load long (.ofInt 9007199254740992) =
        .ok (.integer .long 9007199254740992) ∧
      plainValidator.Accepts (long.schemaOf .empty) (.ofInt 9007199254740992) ∧
      above.faults .empty (.integer .long 9007199254740992) ≠ [] := by
  intro byte long above
  have hbyte : doubles? "[,300]" = some ⟨none, true, some (.ofInt 300), true⟩ := rfl
  have hlong : doubles? "[9007199254740993,]" =
      some ⟨some (.ofInt 9007199254740992), true, none, true⟩ := rfl
  refine ⟨⟨rfl, ?_, ?_⟩, rfl, rfl, ?_, by decide⟩
  · intro d hd
    cases (load_ranged_eq_ok.1 hd).2.1
  · refine (accepts_ranged_iff hbyte).2 ⟨?_, ⟨by simp, ?_⟩, fun _ => ⟨.inr (by decide), .inl ?_⟩⟩
    · rintro x (hx | hx)
      · cases hx
      · cases hx
        rfl
    · intro x hx
      cases hx
      exact (Binary.ofInt_le_iff rfl (by decide)).1 (by decide)
    · exact ⟨rfl, rfl⟩
  · refine (accepts_ranged_iff hlong).2 ⟨?_, ⟨?_, by simp⟩, nofun⟩
    · rintro x (hx | hx)
      · cases hx
        rfl
      · cases hx
    · intro x hx
      cases hx
      exact (Binary.le_ofInt_iff rfl (by decide)).1 (by decide)

end GameConfig
