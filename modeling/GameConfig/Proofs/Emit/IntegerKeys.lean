import GameConfig.Pattern.Reader
import GameConfig.Proofs.Emit.Placement
import GameConfig.Proofs.Json.Integer
import GameConfig.Proofs.Load.Notations
import Mathlib

/-
  Names that stand for integer keys.

  A map in object notation may have integers as keys.  The loader reads their
  names as JSON numbers without the white space around them; the schema of the
  map only gives the names a pattern, `^-?[0-9]+$`.

  * `isIn_keyRegex`: the texts that have a match of the pattern;
  * `loadKey_integer`: the names that the loader takes;
  * `loadKey_iff_accepts`: a name is taken exactly if, without the white space
    around it, it has a match, has no idle zero and spells an integer of the
    width.
-/

namespace GameConfig

open Text Pattern

/-! ## The pattern -/

/-- An optional minus sign and digits, from the start of a text to its end. -/
def keyRegex : Regex :=
  .cat (.look .textStart)
    (.cat (.times 0 (some 1) (.chars #[(45, 45)]))
      (.cat (.times 1 none (.chars #[(48, 57)])) (.look .textEnd)))

theorem read?_integerKeyPattern : Regex.read? integerKeyPattern = some keyRegex := by cbv

namespace keyRegex

/-- What is left of the pattern behind the sign. -/
def behindSign : Regex :=
  .cat (.times 0 (some 0) (.chars #[(45, 45)]))
    (.cat (.times 1 none (.chars #[(48, 57)])) (.look .textEnd))

/-- What is left of it behind a digit. -/
def behindDigit : Regex := .cat (.times 0 none (.chars #[(48, 57)])) (.look .textEnd)

theorem has_digits (c : Char) : Ranges.has #[(48, 57)] c.toNat = Numeral.isDigit c := by
  have hlow : '0' ≤ c ↔ 48 ≤ c.toNat := Iff.rfl
  have hhigh : c ≤ '9' ↔ c.toNat ≤ 57 := Iff.rfl
  rw [Bool.eq_iff_iff]
  simp [Ranges.has, Ranges.search, Numeral.isDigit, hlow, hhigh]

theorem has_sign (c : Char) : Ranges.has #[(45, 45)] c.toNat = (c == '-') := by
  have hsign : c = '-' ↔ c.toNat = 45 := Char.toNat_inj.symm
  rw [Bool.eq_iff_iff]
  simp [Ranges.has, Ranges.search, hsign]
  omega

theorem after_behindDigit (p : Place) (c : Char) :
    behindDigit.after p c = if Numeral.isDigit c then [behindDigit] else [] := by
  cases hc : Numeral.isDigit c <;>
    simp [behindDigit, Regex.after, Regex.empties, Regex.join, has_digits, hc]

theorem after_behindSign (p : Place) (c : Char) :
    behindSign.after p c = if Numeral.isDigit c then [behindDigit] else [] := by
  cases hc : Numeral.isDigit c <;>
    simp [behindSign, behindDigit, Regex.after, Regex.empties, Regex.join, has_digits, hc]

theorem after_start (c : Char) (behind : Option Char) :
    keyRegex.after ⟨none, behind⟩ c =
      if c = '-' then [behindSign] else if Numeral.isDigit c then [behindDigit] else [] := by
  by_cases hsign : c = '-'
  · subst hsign
    rfl
  · cases hc : Numeral.isDigit c <;>
      simp [keyRegex, behindDigit, Regex.after, Regex.empties, Regex.join, Look.holds, has_sign,
        has_digits, hsign, hc]

/-- Behind the first character no match can begin. -/
theorem after_inside (b c : Char) (behind : Option Char) :
    keyRegex.after ⟨some b, behind⟩ c = [] := by
  simp [keyRegex, Regex.after, Regex.empties, Look.holds]

theorem empties_keyRegex (p : Place) : keyRegex.empties p = false := by
  simp [keyRegex, Regex.empties]

theorem empties_behindSign (p : Place) : behindSign.empties p = false := by
  simp [behindSign, Regex.empties]

theorem empties_behindDigit (p : Place) : behindDigit.empties p = p.behind.isNone := by
  simp [behindDigit, Regex.empties, Look.holds]

/-! What the search finds, by what is alive behind some character. -/

theorem search_nothing (b : Char) (cs : List Char) : keyRegex.search (some b) [] cs = false := by
  induction cs generalizing b with
  | nil => simp [Regex.search, empties_keyRegex]
  | cons c cs ih => simp [Regex.search, empties_keyRegex, after_inside, ih]

theorem search_behindDigit (b : Char) (cs : List Char) :
    keyRegex.search (some b) [behindDigit] cs = cs.all Numeral.isDigit := by
  induction cs generalizing b with
  | nil => simp [Regex.search, empties_behindDigit]
  | cons c cs ih =>
    cases hc : Numeral.isDigit c with
    | true =>
      simp [Regex.search, empties_keyRegex, empties_behindDigit, after_inside, after_behindDigit,
        hc, ih, List.eraseDups_cons]
    | false =>
      simp [Regex.search, empties_keyRegex, empties_behindDigit, after_inside, after_behindDigit,
        hc, search_nothing]

theorem search_behindSign (b : Char) (cs : List Char) :
    keyRegex.search (some b) [behindSign] cs = (!cs.isEmpty && cs.all Numeral.isDigit) := by
  cases cs with
  | nil => simp [Regex.search, empties_keyRegex, empties_behindSign]
  | cons c cs =>
    cases hc : Numeral.isDigit c with
    | true =>
      simp [Regex.search, empties_keyRegex, empties_behindSign, after_inside, after_behindSign,
        hc, search_behindDigit, List.eraseDups_cons]
    | false =>
      simp [Regex.search, empties_keyRegex, empties_behindSign, after_inside, after_behindSign,
        hc, search_nothing]

end keyRegex

/-! ## Names of integers -/

namespace IntegerName

/-- The characters behind a minus sign in front. -/
def unsigned : List Char → List Char
  | '-' :: cs => cs
  | cs => cs

/-- The integer that an optional minus sign and digits spell. -/
def spelled (cs : List Char) : Int :=
  if cs.head? = some '-' then -(Numeral.digitsValue 0 (unsigned cs) : Int)
  else Numeral.digitsValue 0 (unsigned cs)

/-- There is a zero in front of another digit, or a minus sign in front of a zero. -/
def hasIdleZero : List Char → Bool
  | '-' :: '0' :: _ => true
  | '0' :: _ :: _ => true
  | _ => false

/-- There are digits, behind an optional minus sign, and nothing else. -/
def IsSpelling (cs : List Char) : Prop :=
  unsigned cs ≠ [] ∧ ∀ c ∈ unsigned cs, Numeral.isDigit c = true

theorem unsigned_of_ne {c : Char} (h : c ≠ '-') (cs : List Char) :
    unsigned (c :: cs) = c :: cs := by
  unfold unsigned
  split
  · rename_i heq
    exact absurd (List.cons.inj heq).1 h
  · rfl

/-- **The pattern is matched by the spellings of integers.** -/
theorem isIn_keyRegex (t : String) : keyRegex.isIn t = true ↔ IsSpelling t.toList := by
  unfold Regex.isIn IsSpelling
  cases t.toList with
  | nil => simp [Regex.search, keyRegex.empties_keyRegex, unsigned]
  | cons c cs =>
    have hstep : keyRegex.search none [] (c :: cs) =
        keyRegex.search (some c) (keyRegex.after ⟨none, some c⟩ c).eraseDups cs := by
      simp [Regex.search, keyRegex.empties_keyRegex]
    rw [hstep, keyRegex.after_start]
    by_cases hsign : c = '-'
    · subst hsign
      simp [unsigned, List.eraseDups_cons, keyRegex.search_behindSign]
    rw [if_neg hsign, unsigned_of_ne hsign]
    cases hc : Numeral.isDigit c with
    | true => simp [List.eraseDups_cons, keyRegex.search_behindDigit, hc]
    | false => simp [keyRegex.search_nothing, hc]

theorem unsigned_digitsOf (n : Nat) : unsigned (digitsOf n) = digitsOf n := by
  cases hdigits : digitsOf n with
  | nil => rfl
  | cons c cs =>
    refine unsigned_of_ne ?_ cs
    rintro rfl
    have hdigit : Numeral.isDigit '-' = true :=
      isDigit_of_mem_digitsOf (n := n) (by rw [hdigits]; exact List.mem_cons_self)
    cases hdigit

theorem head?_digitsOf_ne_zero {n : Nat} (h : n ≠ 0) : (digitsOf n).head? ≠ some '0' := by
  intro hhead
  obtain ⟨ds, hds⟩ := List.head?_eq_some_iff.1 hhead
  have hvalue := digitsValue_digitsOf n
  rw [hds, Document.digitsOf_zero_cons hds] at hvalue
  exact h hvalue.symm

theorem hasIdleZero_digitsOf (n : Nat) : hasIdleZero (digitsOf n) = false := by
  have hunsigned := unsigned_digitsOf n
  unfold hasIdleZero
  split
  · rename_i cs heq
    rw [heq] at hunsigned
    exact absurd (congrArg List.length hunsigned) (by simp [unsigned])
  · rename_i c cs heq
    exact absurd (Document.digitsOf_zero_cons heq) (List.cons_ne_nil _ _)
  · rfl

theorem hasIdleZero_neg_digitsOf {n : Nat} (h : n ≠ 0) :
    hasIdleZero ('-' :: digitsOf n) = false := by
  have hhead := head?_digitsOf_ne_zero h
  cases hdigits : digitsOf n with
  | nil => rfl
  | cons c cs =>
    rw [hdigits] at hhead
    have hc : c ≠ '0' := fun hc => hhead (congrArg some hc)
    simp [hasIdleZero, hc]

/-- The decimal text of an integer spells it, without an idle zero. -/
theorem spelling_integerText (i : Int) : IsSpelling (integerText i).toList ∧
    hasIdleZero (integerText i).toList = false ∧ spelled (integerText i).toList = i := by
  have hdigits : ∀ n, digitsOf n ≠ [] ∧ ∀ c ∈ digitsOf n, Numeral.isDigit c = true := fun n =>
    ⟨Nat.toDigits_ne_nil, fun c => isDigit_of_mem_digitsOf⟩
  rw [Document.integerText_toList]
  split
  · have hne : i.natAbs ≠ 0 := by omega
    refine ⟨hdigits i.natAbs, hasIdleZero_neg_digitsOf hne, ?_⟩
    rw [spelled, if_pos List.head?_cons, unsigned, digitsValue_digitsOf]
    omega
  · have hhead : (digitsOf i.natAbs).head? ≠ some '-' := by
      intro hhead
      obtain ⟨ds, hds⟩ := List.head?_eq_some_iff.1 hhead
      exact absurd ((hdigits i.natAbs).2 '-' (by simp [hds])) (by decide)
    refine ⟨?_, hasIdleZero_digitsOf _, ?_⟩
    · rw [IsSpelling, unsigned_digitsOf]
      exact hdigits i.natAbs
    · rw [spelled, if_neg hhead, unsigned_digitsOf, digitsValue_digitsOf]
      omega

/-- Without an idle zero a spelling is the decimal text of its integer. -/
theorem integerText_spelled {cs : List Char} (h : IsSpelling cs) (hzero : hasIdleZero cs = false) :
    (integerText (spelled cs)).toList = cs := by
  obtain ⟨hne, hd⟩ := h
  cases cs with
  | nil => exact absurd rfl hne
  | cons c cs =>
    by_cases hsign : c = '-'
    · subst hsign
      have hhead : cs.head? ≠ some '0' := by
        intro hhead
        obtain ⟨ds, rfl⟩ := List.head?_eq_some_iff.1 hhead
        cases hzero
      have hdigits : digitsOf (Numeral.digitsValue 0 cs) = cs :=
        digitsOf_digitsValue hd hne fun h0 => absurd h0 hhead
      have hpos : Numeral.digitsValue 0 cs ≠ 0 := by
        intro h0
        rw [h0] at hdigits
        exact hhead (hdigits ▸ rfl)
      rw [spelled, if_pos List.head?_cons, unsigned, Document.integerText_toList, if_pos (by omega),
        Int.natAbs_neg, Int.natAbs_natCast, hdigits]
    · rw [unsigned_of_ne hsign] at hd hne
      have hdigits : digitsOf (Numeral.digitsValue 0 (c :: cs)) = c :: cs := by
        refine digitsOf_digitsValue hd hne fun h0 => ?_
        obtain rfl : c = '0' := Option.some.inj h0
        cases cs with
        | nil => rfl
        | cons d cs => cases hzero
      have hhead : (c :: cs).head? ≠ some '-' := fun h => hsign (Option.some.inj h)
      rw [spelled, if_neg hhead, unsigned_of_ne hsign, Document.integerText_toList, if_neg (by omega),
        Int.natAbs_natCast, hdigits]

end IntegerName

/-! ## Keys -/

namespace Loader

variable {l : Loader} {m : Mark} {w : IntWidth} {name : String} {d : Datum}

/-- What is trimmed begins with a character that is not blank. -/
theorem trim_head {cs : List Char} {c : Char} (h : (trim cs).head? = some c) :
    isBlank c = false := by
  have hprefix : trim cs <+: trimStart cs := by
    rw [← List.reverse_reverse (trimStart cs), trim, trimEnd, List.reverse_prefix]
    exact List.dropWhile_suffix _
  obtain ⟨back, hback⟩ := hprefix
  have hstart : (trimStart cs).head? = some c := by
    rw [← hback, List.head?_append, h, Option.some_or]
  exact trimStart_head hstart

/-- A text without white space around it that is read as an integer is its decimal text. -/
theorem trimmed_eq_of_read? {i : Int} (h : Json.read? (trimmed name) = .ok (.number (.int i))) :
    trimmed name = integerText i := by
  obtain ⟨front, back, hfront, hback, htext⟩ := exists_gaps_of_read?_int h
  have hblank : ∀ {c}, Document.isGap c = true → isBlank c = true := by
    intro c hc
    rcases Document.isGap_iff.1 hc with rfl | rfl | rfl | rfl <;> rfl
  rw [trimmed, String.toList_ofList] at htext
  -- a blank at an end would have been trimmed away
  have hnofront : front = [] := by
    cases front with
    | nil => rfl
    | cons c front =>
      have hc : isBlank c = false := trim_head (by rw [htext]; rfl)
      rw [hblank (hfront c List.mem_cons_self)] at hc
      cases hc
  have hnoback : back = [] := by
    rcases List.eq_nil_or_concat back with rfl | ⟨back, c, rfl⟩
    · rfl
    · have hc : isBlank c = false := trim_last (by rw [htext]; simp)
      rw [hblank (hback c (by simp))] at hc
      cases hc
  rw [hnofront, hnoback, List.nil_append, List.append_nil] at htext
  rw [trimmed, htext, String.ofList_toList]

theorem int64?_of_holds {w : IntWidth} {i : Int} (h : w.holds i = true) :
    (Json.number (.int i)).int64? = some i := by
  have hfits : Numeral.fitsInt64 i = true := by
    simp only [IntWidth.holds, Bool.and_eq_true, decide_eq_true_eq] at h
    rw [Numeral.fitsInt64, Bool.and_eq_true, decide_eq_true_eq, decide_eq_true_eq]
    cases w <;> simp only [IntWidth.least, IntWidth.greatest] at h <;>
      simp only [Numeral.minInt64, Numeral.maxInt64] <;> omega
  rw [Json.int64?, if_pos hfits]

/-- **The names that load as integer keys** are, without the white space around them, the decimal
    texts of the integers of the width. -/
theorem loadKey_integer : l.loadKey (.scalar m (.integer w)) name = .ok d ↔
    ∃ i, trimmed name = integerText i ∧ w.holds i = true ∧ d = .integer w i := by
  rw [loadKey_eq_ok]
  constructor
  · rintro ⟨-, k, hnode, hload⟩
    rw [load_scalar] at hload
    obtain ⟨i, hi, hw, rfl⟩ := integer_eq_ok.1 hload
    have hnumeric : (Ty.scalar m (.integer w)).isNumeric = true := rfl
    rw [keyNode?, if_pos hnumeric] at hnode
    split at hnode
    · rename_i n hread
      cases hnode
      cases n with
      | int j =>
        obtain rfl : j = i := by
          rw [Json.int64?] at hi
          split at hi
          · exact Option.some.inj hi
          · cases hi
        exact ⟨j, trimmed_eq_of_read? hread, hw, rfl⟩
      | double x => cases hi
    · cases hnode
  · rintro ⟨i, htext, hw, rfl⟩
    refine ⟨rfl, .number (.int i), ?_, ?_⟩
    · simp [keyNode?, Ty.isNumeric, htext, read?_integerText hw]
    · rw [load_scalar]
      exact integer_eq_ok.2 ⟨i, int64?_of_holds hw, hw, rfl⟩

end Loader

/-! ## The schema of the names -/

/-- A text has a match of a pattern. -/
def hasMatch (pattern text : String) : Bool := (Regex.read? pattern).any fun r => r.isIn text

/-- The schema of the names of a map in object notation whose keys are integers. -/
def integerNames : Json := .object [("pattern", .string integerKeyPattern)]

/-- Neither tags nor null change what the schema of a map says about the names. -/
theorem member?_propertyNames {s : Schema} {mark m : Mark} {w : IntWidth} {value : Ty} :
    ((Ty.map mark (.scalar m (.integer w)) value).schemaOf s).member? "propertyNames" =
      some integerNames := by
  let ty := Ty.map mark (.scalar m (.integer w)) value
  obtain ⟨t, hshapes⟩ : ∃ t, ty.Shapes t (ty.unmarked s) := shapes_unmarked nofun
  have htags : (applyTags ty mark.tags (ty.unmarked s)).member? "propertyNames" =
      some integerNames := by
    rw [member?_applyTags_of_not_mem (by decide)]
    · rfl
    · intro tag _
      refine not_mem_keys_keywords (by decide) nofun fun names hnames => ?_
      rcases sizeKeys?_eq_some hnames with rfl | rfl | rfl <;> decide
  have hmark : (ty.withMark mark).schemaOf s =
      if mark.nullable then wrapNull (applyTags ty mark.tags (ty.unmarked s))
      else applyTags ty mark.tags (ty.unmarked s) := schemaOf_withMark mark
  refine (congrArg (Json.member? "propertyNames") hmark).trans ?_
  split
  · rw [member?_wrapNull (member?_type_applyTags.trans hshapes.type) (by decide),
      if_neg (by decide), htags]
  · exact htags

theorem accepts_integerNames {document : Json} {t : String} :
    Validator.Accepts ⟨document, hasMatch⟩ integerNames (.string t) ↔
      IntegerName.IsSpelling t.toList := by
  have hmatch : hasMatch integerKeyPattern t = keyRegex.isIn t := by
    rw [hasMatch, read?_integerKeyPattern, Option.any_some]
  rw [← IntegerName.isIn_keyRegex, ← hmatch, integerNames, Validator.accepts_object rfl]
  simp [Validator.demand?, Json.string?]

/-- **A name loads as an integer key exactly if the text without the white space around it is
    accepted by the schema of the names, has no idle zero and spells an integer of the width.**  The
    key is that integer. -/
theorem loadKey_iff_accepts (l : Loader) (document : Json) (mark m : Mark) (w : IntWidth)
    (value : Ty) :
    ∃ names, ((Ty.map mark (.scalar m (.integer w)) value).schemaOf l.schema).member?
        "propertyNames" = some names ∧
      ∀ (name : String) (d : Datum), l.loadKey (.scalar m (.integer w)) name = .ok d ↔
        Validator.Accepts ⟨document, hasMatch⟩ names (.string (trimmed name)) ∧
        IntegerName.hasIdleZero (trimmed name).toList = false ∧
        w.holds (IntegerName.spelled (trimmed name).toList) = true ∧
        d = .integer w (IntegerName.spelled (trimmed name).toList) := by
  refine ⟨integerNames, member?_propertyNames, fun name d => ?_⟩
  rw [Loader.loadKey_integer, accepts_integerNames]
  constructor
  · rintro ⟨i, htext, hw, rfl⟩
    obtain ⟨hspelling, hzero, hvalue⟩ := IntegerName.spelling_integerText i
    rw [htext, hvalue]
    exact ⟨hspelling, hzero, hw, rfl⟩
  · rintro ⟨hspelling, hzero, hw, rfl⟩
    refine ⟨_, String.toList_inj.1 ?_, hw, rfl⟩
    exact (IntegerName.integerText_spelled hspelling hzero).symm

/-- The schema and the width alone do not decide: ` 1` loads without a match, and `01` does not load
    with one. -/
theorem loads_blank_accepts_zero :
    (¬ ∀ (l : Loader) (document : Json) (m : Mark) (w : IntWidth) (name : String),
      (∃ d, l.loadKey (.scalar m (.integer w)) name = .ok d) →
        Validator.Accepts ⟨document, hasMatch⟩ integerNames (.string name)) ∧
    ¬ ∀ (l : Loader) (document : Json) (m : Mark) (w : IntWidth) (name : String),
      Validator.Accepts ⟨document, hasMatch⟩ integerNames (.string name) →
        w.holds (IntegerName.spelled name.toList) = true →
          ∃ d, l.loadKey (.scalar m (.integer w)) name = .ok d := by
  constructor
  · intro hagree
    have hloads : Loader.loadKey ⟨.empty, none⟩ (.scalar .plain (.integer .int)) " 1" =
        .ok (.integer .int 1) := Loader.loadKey_integer.2 ⟨1, by decide, by decide, rfl⟩
    have haccepts := hagree ⟨.empty, none⟩ .null .plain .int " 1" ⟨_, hloads⟩
    exact absurd ((accepts_integerNames.1 haccepts).2 ' ' (by decide)) (by decide)
  · intro hagree
    have haccepts : Validator.Accepts ⟨.null, hasMatch⟩ integerNames (.string "01") :=
      accepts_integerNames.2 ⟨by decide, List.all_eq_true.1 (by decide)⟩
    obtain ⟨d, hd⟩ := hagree ⟨.empty, none⟩ .null .plain .int "01" haccepts (by decide)
    obtain ⟨i, htext, -⟩ := Loader.loadKey_integer.1 hd
    have hzero := (IntegerName.spelling_integerText i).2.1
    rw [← htext] at hzero
    exact absurd hzero (by decide)

end GameConfig
