import GameConfig.Proofs.Number.Decimal
import GameConfig.Proofs.Number.Digits
import GameConfig.Proofs.Number.Order
import GameConfig.Proofs.Number.Shortest

/-
  Numbers as they are written.

  A `Numeral` is the text of a number in decimal, with the parts that it is made
  of: an optional sign, digits with an optional point among them, and an optional
  exponent.  Its value is rational.

  * `Numeral.readDouble?_chars`: every numeral is read as a double, and as the
    nearest one (`Numeral.rounds_readDouble?`);
  * `Numeral.readInt64?_eq_some_iff`: only what is written without point and
    exponent and fits 64 bits is read as an integer.
-/

namespace GameConfig

-- powers are those of the core library, whatever algebra is imported
attribute [local instance (high)] instPowNat

/-! ## Signs -/

/-- A sign as it is written. -/
inductive Sign where
  | unsigned
  | plus
  | minus
deriving DecidableEq, Repr

namespace Sign

def chars : Sign → List Char
  | unsigned => []
  | plus => ['+']
  | minus => ['-']

def isMinus : Sign → Bool
  | minus => true
  | _ => false

/-- The number with this sign in front. -/
def apply {α : Type} [Neg α] (s : Sign) (a : α) : α := if s.isMinus then -a else a

end Sign

namespace Numeral

/-- A sign is read off where none follows. -/
theorem readSign_chars (s : Sign) {cs : List Char} (h : ∀ c ∈ cs.head?, c ≠ '+' ∧ c ≠ '-') :
    readSign (s.chars ++ cs) = (s.isMinus, cs) := by
  cases s with
  | plus => rfl
  | minus => rfl
  | unsigned =>
    show readSign cs = (false, cs)
    unfold readSign
    split
    · exact absurd rfl (h '-' rfl).2
    · exact absurd rfl (h '+' rfl).1
    · rfl

/-- Neither digits nor points are signs. -/
theorem ne_sign {c : Char} (h : isDigit c = true ∨ c = '.') : c ≠ '+' ∧ c ≠ '-' := by
  constructor
  · rintro rfl
    revert h
    decide
  · rintro rfl
    revert h
    decide

/-! ## Digits -/

/-- A run of digits ends where no digit follows. -/
theorem span_digits {ds : List Char} (rest : List Char) (hd : ∀ c ∈ ds, isDigit c = true)
    (hr : ∀ c ∈ rest.head?, isDigit c = false) :
    (ds ++ rest).takeWhile isDigit = ds ∧ (ds ++ rest).dropWhile isDigit = rest := by
  have hrest : rest.takeWhile isDigit = [] ∧ rest.dropWhile isDigit = rest := by
    cases rest with
    | nil => simp
    | cons c rest => simp [hr c rfl]
  rw [List.takeWhile_append_of_pos hd, List.dropWhile_append_of_pos hd, hrest.1, hrest.2]
  simp

/-- Digits behind a sign are read as an integer. -/
theorem readInt?_signed (s : Sign) {ds : List Char} (hd : ∀ c ∈ ds, isDigit c = true)
    (hne : ds ≠ []) :
    readInt? (s.chars ++ ds) = some (s.apply (Nat.ofDigitChars 10 ds 0 : ℤ)) := by
  have hsign := readSign_chars s fun c hc => ne_sign (.inl (hd c (List.mem_of_mem_head? hc)))
  have hall : ds.all isDigit = true := List.all_eq_true.2 hd
  simp [readInt?, hsign, hall, hne, Sign.apply, digitsValue_eq]

/-- What has something else behind the sign is not. -/
theorem readInt?_eq_none (s : Sign) {cs : List Char} (hsign : ∀ c ∈ cs.head?, c ≠ '+' ∧ c ≠ '-')
    {c : Char} (hc : c ∈ cs) (hd : isDigit c = false) : readInt? (s.chars ++ cs) = none := by
  have hall : cs.all isDigit = false := List.all_eq_false.2 ⟨c, hc, by simp [hd]⟩
  simp [readInt?, readSign_chars s hsign, hall]

section

variable (negative : Bool) {whole fraction rest : List Char} {e : ℤ}
  (hw : ∀ c ∈ whole, isDigit c = true) (hrest : ∀ c ∈ rest.head?, isDigit c = false)
  (he : readExponent? rest = some e)

include hw hrest he

/-- Digits without a point are read to their end. -/
theorem readDecimal?_whole (hne : whole ≠ []) (hpoint : '.' ∉ rest.head?) :
    readDecimal? negative (whole ++ rest) = some (ofDecimal negative (digitsValue 0 whole) e) := by
  obtain ⟨htake, hdrop⟩ := span_digits rest hw hrest
  unfold readDecimal?
  rw [htake, hdrop]
  dsimp only
  split
  · exact absurd rfl hpoint
  · simp [hne, he]

/-- Digits around a point are read as all of them, as many places down as stand behind it. -/
theorem readDecimal?_point (hf : ∀ c ∈ fraction, isDigit c = true) (hne : whole ++ fraction ≠ []) :
    readDecimal? negative (whole ++ '.' :: (fraction ++ rest)) =
      some (ofDecimal negative (digitsValue 0 (whole ++ fraction)) (e - fraction.length)) := by
  obtain ⟨htake, hdrop⟩ := span_digits ('.' :: (fraction ++ rest)) hw (by simp; decide)
  obtain ⟨htake', hdrop'⟩ := span_digits rest hf hrest
  have hne' : (whole.isEmpty && fraction.isEmpty) = false := by
    rwa [← Bool.not_eq_true, Bool.and_eq_true, List.isEmpty_iff, List.isEmpty_iff,
      ← List.append_eq_nil_iff]
  unfold readDecimal?
  rw [htake, hdrop]
  simp [htake', hdrop', hne', he]

end

/-- What begins with a digit or a point, behind a sign or not, is read as a decimal. -/
theorem readDouble?_signed (s : Sign) {c : Char} {cs : List Char}
    (hc : isDigit c = true ∨ c = '.') :
    readDouble? (s.chars ++ c :: cs) = readDecimal? s.isMinus (c :: cs) := by
  have hsign : readSign (s.chars ++ c :: cs) = (s.isMinus, c :: cs) := by
    refine readSign_chars s fun d hd => ?_
    cases hd
    exact ne_sign hc
  have hlower : lowerAscii c = c := by
    have hrange : ¬ 'A' ≤ c := by
      intro h
      rcases hc with hc | rfl
      · simp only [isDigit, Bool.and_eq_true, decide_eq_true_eq] at hc
        exact absurd (Char.le_trans h hc.2) (by decide)
      · exact absurd h (by decide)
    simp [lowerAscii, hrange]
  have hi : c ≠ 'i' := by rintro rfl; revert hc; decide
  have hn : c ≠ 'n' := by rintro rfl; revert hc; decide
  simp [readDouble?, hsign, hlower, hi, hn]

end Numeral

/-! ## Numerals -/

/-- An exponent as it is written. -/
structure Exponent where
  upper : Bool
  sign : Sign
  digits : List Char
  isDigit_digits : ∀ c ∈ digits, Numeral.isDigit c = true
  digits_ne_nil : digits ≠ []
deriving DecidableEq

namespace Exponent

def chars (e : Exponent) : List Char := (if e.upper then 'E' else 'e') :: (e.sign.chars ++ e.digits)

def value (e : Exponent) : ℤ := e.sign.apply (Nat.ofDigitChars 10 e.digits 0 : ℤ)

theorem readExponent?_chars (e : Exponent) : Numeral.readExponent? e.chars = some e.value := by
  have h := Numeral.readInt?_signed e.sign e.isDigit_digits e.digits_ne_nil
  cases hu : e.upper with
  | false => simp [Numeral.readExponent?, chars, hu, h, value]
  | true => simp [Numeral.readExponent?, chars, hu, h, value]

end Exponent

/-- A number as it is written in decimal. -/
structure Numeral where
  sign : Sign
  /-- The digits before the point. -/
  whole : List Char
  /-- The digits behind the point, if there is one. -/
  fraction : Option (List Char)
  exponent : Option Exponent
  isDigit_whole : ∀ c ∈ whole, Numeral.isDigit c = true
  isDigit_fraction : ∀ c ∈ fraction.getD [], Numeral.isDigit c = true
  digits_ne_nil : whole ++ fraction.getD [] ≠ []
deriving DecidableEq

namespace Numeral

/-- The digits behind the point. -/
def places (n : Numeral) : List Char := n.fraction.getD []

/-- The power of ten that the exponent gives. -/
def power (n : Numeral) : ℤ := (n.exponent.map Exponent.value).getD 0

def exponentChars (n : Numeral) : List Char := (n.exponent.map Exponent.chars).getD []

/-- What stands behind the sign. -/
def body (n : Numeral) : List Char :=
  match n.fraction with
  | none => n.whole ++ n.exponentChars
  | some fraction => n.whole ++ '.' :: (fraction ++ n.exponentChars)

def chars (n : Numeral) : List Char := n.sign.chars ++ n.body

/-- What is written behind the sign: all digits, with as many places less as there are behind the
    point. -/
def decimal (n : Numeral) : Decimal :=
  ⟨Nat.ofDigitChars 10 (n.whole ++ n.places) 0, n.power - n.places.length⟩

/-- The number that is written. -/
def value (n : Numeral) : ℚ := n.sign.apply n.decimal.value

/-- An integer of 64 bits, written as one. -/
def IsInt64 (n : Numeral) : Prop :=
  n.fraction = none ∧ n.exponent = none ∧ (minInt64 : ℚ) ≤ n.value ∧ n.value ≤ (maxInt64 : ℚ)

instance (n : Numeral) : Decidable n.IsInt64 := inferInstanceAs (Decidable (_ ∧ _))

variable (n : Numeral)

theorem readExponent?_exponentChars : readExponent? n.exponentChars = some n.power := by
  unfold exponentChars power
  cases n.exponent with
  | none => rfl
  | some e => exact e.readExponent?_chars

/-- An exponent begins with its letter. -/
theorem head?_exponentChars : ∀ c ∈ n.exponentChars.head?, isDigit c = false ∧ c ≠ '.' := by
  unfold exponentChars
  cases n.exponent with
  | none => simp
  | some e =>
    rintro c hc
    obtain rfl : (if e.upper then 'E' else 'e') = c := by simpa [Exponent.chars] using hc
    cases e.upper with
    | false => decide
    | true => decide

/-- Behind the sign there is a digit or a point first. -/
theorem exists_body : ∃ c cs, n.body = c :: cs ∧ (isDigit c = true ∨ c = '.') := by
  have hne := n.digits_ne_nil
  unfold body
  cases hw : n.whole with
  | cons c ds =>
    have hc : isDigit c = true := n.isDigit_whole c (by simp [hw])
    cases n.fraction with
    | none => exact ⟨c, _, rfl, .inl hc⟩
    | some fraction => exact ⟨c, _, rfl, .inl hc⟩
  | nil =>
    cases hf : n.fraction with
    | none => simp [hw, hf] at hne
    | some fraction => exact ⟨'.', _, rfl, .inr rfl⟩

/-- **Every numeral is read as a double.** -/
theorem readDouble?_chars : readDouble? n.chars =
    some (ofDecimal n.sign.isMinus n.decimal.digits n.decimal.exponent) := by
  have hexp := n.readExponent?_exponentChars
  have hrest : ∀ c ∈ n.exponentChars.head?, isDigit c = false :=
    fun c hc => (n.head?_exponentChars c hc).1
  have hdecimal : readDecimal? n.sign.isMinus n.body =
      some (ofDecimal n.sign.isMinus n.decimal.digits n.decimal.exponent) := by
    have hne := n.digits_ne_nil
    have hfraction := n.isDigit_fraction
    unfold body decimal places
    cases hf : n.fraction with
    | none =>
      rw [hf, Option.getD_none, List.append_nil] at hne
      have h := readDecimal?_whole n.sign.isMinus n.isDigit_whole hrest hexp hne
        fun hc => (n.head?_exponentChars _ hc).2 rfl
      simpa [digitsValue_eq] using h
    | some fraction =>
      rw [hf] at hne hfraction
      exact readDecimal?_point n.sign.isMinus n.isDigit_whole hrest hexp hfraction hne
  obtain ⟨c, cs, hbody, hc⟩ := n.exists_body
  rw [chars, hbody, readDouble?_signed n.sign hc, ← hbody, hdecimal]

/-- **A numeral is read as the double nearest to its value.** -/
theorem rounds_readDouble? : ∃ x : Double, readDouble? n.chars = some x ∧ x.Rounds n.value := by
  refine ⟨_, n.readDouble?_chars, ?_⟩
  rw [ofDecimal_eq]
  have h := Binary.rounds_ofRatio (l := .double) n.sign.isMinus
    (Ratio.den_scaled_pos n.decimal.digits (by decide : 0 < 10) n.decimal.exponent)
  rwa [Ratio.value_scaled] at h

/-- A point or an exponent is not made of digits. -/
theorem exists_not_digit (h : ¬ (n.fraction = none ∧ n.exponent = none)) :
    ∃ c ∈ n.body, isDigit c = false := by
  unfold body
  cases hf : n.fraction with
  | some fraction => exact ⟨'.', by simp, rfl⟩
  | none =>
    cases hexp : n.exponent with
    | none => exact absurd ⟨hf, hexp⟩ h
    | some e =>
      have hletter : (if e.upper then 'E' else 'e') ∈ n.exponentChars.head? := by
        simp [exponentChars, hexp, Exponent.chars]
      exact ⟨_, List.mem_append_right _ (List.mem_of_mem_head? hletter),
        (n.head?_exponentChars _ hletter).1⟩

/-- Without point and exponent an integer is written, and read. -/
theorem exists_readInt? (hf : n.fraction = none) (hexp : n.exponent = none) :
    ∃ k : ℤ, n.value = k ∧ readInt? n.chars = some k := by
  have hne := n.digits_ne_nil
  rw [hf, Option.getD_none, List.append_nil] at hne
  have hchars : n.chars = n.sign.chars ++ n.whole := by simp [chars, body, exponentChars, hf, hexp]
  have hdecimal : n.decimal.value = Nat.ofDigitChars 10 n.whole 0 := by
    simp [Decimal.value, decimal, places, power, hf, hexp]
  refine ⟨n.sign.apply (Nat.ofDigitChars 10 n.whole 0 : ℤ), ?_, ?_⟩
  · rw [value, hdecimal, Sign.apply, Sign.apply]
    split
    · push_cast
      rfl
    · norm_cast
  · rw [hchars, readInt?_signed n.sign n.isDigit_whole hne]

/-- **Only integers of 64 bits that are written as such are read as integers.** -/
theorem readInt64?_eq_some_iff {i : ℤ} : readInt64? n.chars = some i ↔ n.IsInt64 ∧ n.value = i := by
  by_cases hplain : n.fraction = none ∧ n.exponent = none
  · obtain ⟨hf, hexp⟩ := hplain
    obtain ⟨k, hk, hread⟩ := n.exists_readInt? hf hexp
    unfold readInt64? IsInt64
    simp only [hread, hf, hexp, hk, true_and, Int.cast_inj, Int.cast_le]
    by_cases hfits : minInt64 ≤ k ∧ k ≤ maxInt64
    · simp [fitsInt64, hfits]
    · have hfalse : fitsInt64 k = false := by simpa [fitsInt64] using hfits
      simp [hfalse, hfits]
  · obtain ⟨c, cs, hbody, hc⟩ := n.exists_body
    have hsign : ∀ d ∈ n.body.head?, d ≠ '+' ∧ d ≠ '-' := by
      intro d hd
      rw [hbody] at hd
      cases hd
      exact ne_sign hc
    obtain ⟨d, hd, hdigit⟩ := n.exists_not_digit hplain
    have hread : readInt? n.chars = none := readInt?_eq_none n.sign hsign hd hdigit
    have hnot : ¬ n.IsInt64 := fun h => hplain ⟨h.1, h.2.1⟩
    simp [readInt64?, hread, hnot]

theorem IsInt64.exists_readInt64? {n : Numeral} (h : n.IsInt64) :
    ∃ i, readInt64? n.chars = some i := by
  obtain ⟨k, hk, -⟩ := n.exists_readInt? h.1 h.2.1
  exact ⟨k, n.readInt64?_eq_some_iff.2 ⟨h, hk⟩⟩

/-- An integer in full. -/
def ofInt (i : ℤ) : Numeral where
  sign := if i < 0 then .minus else .unsigned
  whole := digitsOf i.natAbs
  fraction := none
  exponent := none
  isDigit_whole _ hc := isDigit_of_mem_digitsOf hc
  isDigit_fraction := by simp
  digits_ne_nil := by simp [digitsOf, Nat.toDigits_ne_nil]

theorem value_ofInt (i : ℤ) : (ofInt i).value = i := by
  have hdecimal : (ofInt i).decimal.value = i.natAbs := by
    simp [Decimal.value, decimal, places, power, ofInt, ← digitsValue_eq, digitsValue_digitsOf]
  rw [value, hdecimal, ofInt, Sign.apply, Nat.cast_natAbs]
  rcases lt_or_ge i 0 with h | h
  · simp [h, Sign.isMinus, abs_of_neg h]
  · simp [h.not_gt, Sign.isMinus, abs_of_nonneg h]

theorem isInt64_ofInt {i : ℤ} (hmin : minInt64 ≤ i) (hmax : i ≤ maxInt64) : (ofInt i).IsInt64 := by
  refine ⟨rfl, rfl, ?_⟩
  rw [value_ofInt]
  exact_mod_cast And.intro hmin hmax

/-! ## Characters -/

/-- The characters of numerals. -/
def isNumeralChar (c : Char) : Bool := isDigit c || ['+', '-', '.', 'e', 'E'].contains c

theorem isNumeralChar_of_isDigit {c : Char} (h : isDigit c = true) : isNumeralChar c = true := by
  rw [isNumeralChar, h, Bool.true_or]

theorem isNumeralChar_of_mem_sign (s : Sign) {c : Char} (h : c ∈ s.chars) :
    isNumeralChar c = true := by
  cases s with
  | unsigned => cases h
  | plus => rw [List.mem_singleton.1 h]; rfl
  | minus => rw [List.mem_singleton.1 h]; rfl

theorem isNumeralChar_of_mem_exponent {c : Char} (h : c ∈ n.exponentChars) :
    isNumeralChar c = true := by
  unfold exponentChars at h
  cases hexp : n.exponent with
  | none =>
    rw [hexp] at h
    cases h
  | some e =>
    rw [hexp] at h
    rcases List.mem_cons.1 h with rfl | h
    · cases e.upper <;> rfl
    rcases List.mem_append.1 h with h | h
    · exact isNumeralChar_of_mem_sign e.sign h
    · exact isNumeralChar_of_isDigit (e.isDigit_digits c h)

/-- **Numerals are made of their characters.** -/
theorem isNumeralChar_of_mem {c : Char} (h : c ∈ n.chars) : isNumeralChar c = true := by
  rcases List.mem_append.1 h with h | h
  · exact isNumeralChar_of_mem_sign n.sign h
  unfold body at h
  have hfraction := n.isDigit_fraction
  cases hf : n.fraction with
  | none =>
    rw [hf] at h
    rcases List.mem_append.1 h with h | h
    · exact isNumeralChar_of_isDigit (n.isDigit_whole c h)
    · exact n.isNumeralChar_of_mem_exponent h
  | some fraction =>
    rw [hf] at h hfraction
    rcases List.mem_append.1 h with h | h
    · exact isNumeralChar_of_isDigit (n.isDigit_whole c h)
    rcases List.mem_cons.1 h with rfl | h
    · rfl
    rcases List.mem_append.1 h with h | h
    · exact isNumeralChar_of_isDigit (hfraction c h)
    · exact n.isNumeralChar_of_mem_exponent h

/-- None of them is blank. -/
theorem isBlank_of_isNumeralChar {c : Char} (h : isNumeralChar c = true) :
    Text.isBlank c = false := by
  rw [isNumeralChar, Bool.or_eq_true] at h
  rcases h with h | h
  · exact Text.isBlank_of_isDigit h
  · simp only [List.contains_eq_mem, decide_eq_true_eq, List.mem_cons, List.not_mem_nil,
      or_false] at h
    rcases h with rfl | rfl | rfl | rfl | rfl <;> rfl

theorem chars_ne_nil : n.chars ≠ [] := by
  obtain ⟨c, cs, hbody, -⟩ := n.exists_body
  simp [chars, hbody]

end Numeral

end GameConfig
