import GameConfig.Proofs.Json.Front

/-
  Texts that are read as an integer.

  JSON spells every integer in one way: in decimal digits, with no zero in front
  of another digit and no sign before zero.  A fraction or an exponent makes a
  double, and so does minus zero.  So what is read as an integer is its decimal
  text, with nothing but white space around it (`exists_gaps_of_read?_int`).
-/

namespace GameConfig

open Text Numeral

-- powers and sums are those of the core library, whatever algebra is imported
attribute [local instance (high)] instPowNat Zero.ofOfNat0

namespace Document

variable {negative : Bool} {digits : Nat} {e : Int} {i : Int}

/-! ## Fractions and exponents -/

theorem numberResult_ne_int (rest : List Symbol) (r : Except Fault Double) :
    (numberResult rest r).1 ≠ .number (.int i) := by
  cases r <;> simp [numberResult]

theorem readExponent_ne_int (input : List Symbol) :
    (readExponent negative digits e input).1 ≠ .number (.int i) := by
  unfold readExponent
  dsimp only
  split
  · simp
  split
  · exact numberResult_ne_int _ _
  · simp

theorem readFraction_ne_int (input : List Symbol) :
    (readFraction negative digits e input).1 ≠ .number (.int i) := by
  unfold readFraction
  split
  · simp
  split
  · dsimp only
    split
    · exact readExponent_ne_int _
    · exact readExponent_ne_int _
    · exact numberResult_ne_int _ _
  · simp

/-! ## Whole numbers -/

/-- Digits that are all taken up are taken up as their value. -/
theorem absorb_eq {acc n : Nat} {ds : List Char} (h : absorb acc (ds.map some) = (n, 0)) :
    n = digitsValue acc ds := by
  induction ds generalizing acc with
  | nil => exact (Prod.mk.inj h).1.symm
  | cons d ds ih =>
    rw [List.map_cons, absorb, digitOf] at h
    split at h
    · simp at h
    · exact ih h

/-- The number of digits alone is an integer, unless it is minus zero or too large. -/
theorem wholeNumber_eq_int {n : Nat} (h : wholeNumber negative n = .int i) :
    i = (if negative then -(n : Int) else n) ∧ (negative = true → n ≠ 0) := by
  cases negative with
  | false => exact ⟨(Json.Number.int.inj h).symm, nofun⟩
  | true =>
    simp only [wholeNumber, Bool.not_true, Bool.false_eq_true, if_false] at h
    split at h
    · cases h
    · rename_i hn
      refine ⟨(Json.Number.int.inj h).symm, fun _ h0 => ?_⟩
      simp [h0] at hn

/-- **What is read as an integer is the digits of its size.** -/
theorem readNumber_eq_int {input rest : List Symbol}
    (h : readNumber negative input = (.number (.int i), rest)) :
    ∃ n : Nat, input = (digitsOf n).map some ++ rest ∧
      i = (if negative then -(n : Int) else n) ∧ (negative = true → n ≠ 0) := by
  obtain ⟨c, ds, hds, hdrop⟩ := exists_digits_of_read isBroken_readNumber (by rw [h]; rfl)
  rw [hdrop, readNumber_span hds (head_dropWhile input)] at h
  split at h
  · cases (Prod.mk.inj h).1
  rename_i hzero
  unfold readBehindWhole at h
  split at h
  · exact absurd (congrArg Prod.fst h) (readFraction_ne_int _)
  · exact absurd (congrArg Prod.fst h) (readExponent_ne_int _)
  · exact absurd (congrArg Prod.fst h) (readExponent_ne_int _)
  split at h
  · rename_i hleft
    obtain ⟨hnumber, hrest⟩ := Prod.mk.inj h
    have hvalue : (absorb 0 ((c :: ds).map some)).1 = digitsValue 0 (c :: ds) :=
      absorb_eq (Prod.ext rfl hleft)
    have hdigits : digitsOf (digitsValue 0 (c :: ds)) = c :: ds := by
      refine digitsOf_digitsValue hds (List.cons_ne_nil _ _) fun hc => ?_
      have hc : c = '0' := Option.some.inj hc
      by_contra hlength
      exact hzero ⟨hc, fun hnil => hlength (by rw [hnil]; rfl)⟩
    refine ⟨_, ?_, wholeNumber_eq_int (Document.number.inj hnumber)⟩
    rw [congrArg digitsOf hvalue, hdigits, ← hrest]
    exact hdrop
  · exact absurd (congrArg Prod.fst h) (numberResult_ne_int _ _)

/-! ## Values -/

theorem readWord_ne_int {found : Document} (hf : found ≠ .number (.int i)) (ws : List Char)
    (input : List Symbol) : (readWord found ws input).1 ≠ .number (.int i) := by
  induction ws generalizing input with
  | nil => exact hf
  | cons w ws ih =>
    cases input with
    | nil => simp [readWord]
    | cons s input =>
      unfold readWord
      split
      · exact ih input
      · simp

/-- **A value that is an integer is written as its decimal text**, behind white space. -/
theorem readValue_eq_int {fuel depth : Nat} {input rest : List Symbol}
    (h : readValue fuel depth input = (.number (.int i), rest)) :
    ∃ gap : List Char, (∀ c ∈ gap, isGap c = true) ∧
      input = (gap ++ (integerText i).toList).map some ++ rest := by
  cases fuel with
  | zero =>
    rw [Document.readValue] at h
    cases (Prod.mk.inj h).1
  | succ fuel =>
    unfold Document.readValue at h
    split at h
    · cases (Prod.mk.inj h).1
    -- words
    case h_2 | h_3 | h_4 =>
      exact absurd (congrArg Prod.fst h) (readWord_ne_int (by simp) _ _)
    -- numbers below zero
    case h_5 hskip =>
      obtain ⟨gap, hgap, rfl, -⟩ := exists_gap hskip
      obtain ⟨n, rfl, rfl, hn⟩ := readNumber_eq_int h
      have hn := hn rfl
      refine ⟨gap, hgap, ?_⟩
      rw [integerText_toList, if_pos rfl, if_pos (by omega), Int.natAbs_neg, Int.natAbs_natCast,
        List.map_append, List.append_assoc]
      rfl
    -- strings, arrays and objects
    case h_6 => split at h <;> cases (Prod.mk.inj h).1
    case h_7 | h_8 => split at h <;> cases (Prod.mk.inj h).1
    -- numbers without a sign
    case h_9 hskip =>
      obtain ⟨gap, hgap, rfl, -⟩ := exists_gap hskip
      split at h
      · obtain ⟨n, hinput, rfl, -⟩ := readNumber_eq_int h
        refine ⟨gap, hgap, ?_⟩
        rw [hinput, integerText_toList, if_neg Bool.false_ne_true, if_neg (by omega),
          Int.natAbs_natCast, List.map_append, List.append_assoc]
      · cases (Prod.mk.inj h).1

end Document

/-- **A text that is read as an integer is its decimal text with white space around it.** -/
theorem exists_gaps_of_read?_int {t : String} {i : Int}
    (h : Json.read? t = .ok (.number (.int i))) :
    ∃ front back : List Char, (∀ c ∈ front, Document.isGap c = true) ∧
      (∀ c ∈ back, Document.isGap c = true) ∧
        t.toList = front ++ ((integerText i).toList ++ back) := by
  unfold Json.read? at h
  dsimp only at h
  split at h
  · cases h
  rename_i j hjson
  split at h
  · rename_i hrest
    cases h
    have hread : (Document.read (ofString t)).1 = .number (.int i) := by
      generalize (Document.read (ofString t)).1 = document at hjson
      cases document with
      | number x =>
        cases hjson
        rfl
      | array items ending =>
        simp only [Document.toJson?] at hjson
        split at hjson <;> cases hjson
      | object members ending =>
        simp only [Document.toJson?] at hjson
        split at hjson <;> cases hjson
      | null | bool | string | broken => cases hjson
    obtain ⟨front, hfront, hinput⟩ := Document.readValue_eq_int (Prod.ext hread rfl)
    obtain ⟨back, hback, hskip⟩ :=
      Document.exists_gap_skipBlank (Document.read (ofString t)).2
    rw [List.isEmpty_iff.1 hrest, List.append_nil] at hskip
    refine ⟨front, back, hfront, hback, List.map_inj_right (fun _ _ => Option.some.inj) |>.1 ?_⟩
    calc t.toList.map some
      _ = (front ++ (integerText i).toList).map some ++ (Document.read (ofString t)).2 := hinput
      _ = (front ++ ((integerText i).toList ++ back)).map some := by
        rw [hskip, ← List.map_append, List.append_assoc]
  · cases h

end GameConfig
