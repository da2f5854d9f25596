import GameConfig.Proofs.Json.Text

/-
  Reading looks at nothing behind the value.

  Whatever is read is read from characters at the front of the text, and it is
  read in the same way with any other text behind them; behind a number the text
  must not go on with it (`EndsNumber`).

  * `Local`: readers of strings and their escapes;
  * `LocalNumber`: readers of numbers;
  * `read_front`: values.
-/

namespace GameConfig

open Text Numeral

-- powers and sums are those of the core library, whatever algebra is imported
attribute [local instance (high)] instPowNat Zero.ofOfNat0

namespace Document

/-! ## White space -/

/-- What is skipped is white space. -/
theorem exists_gap_skipBlank (input : List Symbol) :
    ∃ gap : List Char, (∀ c ∈ gap, isGap c = true) ∧
      input = gap.map some ++ skipBlank input := by
  have hnext : ∀ {c : Char} {input : List Symbol}, isGap c = true →
      (∃ gap : List Char, (∀ c ∈ gap, isGap c = true) ∧
        input = gap.map some ++ skipBlank input) →
      ∃ gap : List Char, (∀ c ∈ gap, isGap c = true) ∧
        some c :: input = gap.map some ++ skipBlank input := by
    rintro c input hc ⟨gap, hgap, hinput⟩
    exact ⟨c :: gap, List.forall_mem_cons.2 ⟨hc, hgap⟩, congrArg (some c :: ·) hinput⟩
  fun_induction skipBlank input with
  | case1 input ih => exact hnext rfl ih
  | case2 input ih => exact hnext rfl ih
  | case3 input ih => exact hnext rfl ih
  | case4 input ih => exact hnext rfl ih
  | case5 input => exact ⟨[], by simp, rfl⟩

/-- Nothing is skipped any more. -/
theorem isGap_of_skipBlank {input rest : List Symbol} {c : Char}
    (h : skipBlank input = some c :: rest) : isGap c = false := by
  fun_induction skipBlank input with
  | case1 input ih | case2 input ih | case3 input ih | case4 input ih => exact ih h
  | case5 input hblank hline htab hreturn =>
    subst h
    by_contra hgap
    rcases isGap_iff.1 (Bool.not_eq_false _ ▸ hgap) with rfl | rfl | rfl | rfl
    · exact hblank rest rfl
    · exact hline rest rfl
    · exact htab rest rfl
    · exact hreturn rest rfl

/-- What is left of a text is behind white space, and begins with none. -/
theorem exists_gap {input rest : List Symbol} {s : Symbol} (h : skipBlank input = s :: rest) :
    ∃ gap : List Char, (∀ c ∈ gap, isGap c = true) ∧ input = gap.map some ++ s :: rest ∧
      ∀ c, s = some c → isGap c = false := by
  obtain ⟨gap, hgap, hinput⟩ := exists_gap_skipBlank input
  rw [h] at hinput
  refine ⟨gap, hgap, hinput, ?_⟩
  rintro c rfl
  exact isGap_of_skipBlank h

/-! ## Strings -/

/-- The reader takes characters off the front, and reads the same with any text behind them. -/
def Local {β : Type} (read : List Symbol → Except Fault (β × List Symbol)) : Prop :=
  ∀ {input : List Symbol} {b : β} {rest : List Symbol}, read input = .ok (b, rest) →
    ∃ front : List Char, front ≠ [] ∧ input = front.map some ++ rest ∧
      ∀ back, read (front.map some ++ back) = .ok (b, back)

theorem hexValue?_eq_some {s : Symbol} {n : Nat} (h : hexValue? s = some n) : ∃ c, s = some c := by
  cases s with
  | none => cases h
  | some c => exact ⟨c, rfl⟩

theorem local_readHex : Local readHex := by
  intro input n rest h
  unfold readHex at h
  split at h
  · split at h
    · rename_i ha hb hc hd
      obtain ⟨a, rfl⟩ := hexValue?_eq_some ha
      obtain ⟨b, rfl⟩ := hexValue?_eq_some hb
      obtain ⟨c, rfl⟩ := hexValue?_eq_some hc
      obtain ⟨d, rfl⟩ := hexValue?_eq_some hd
      obtain ⟨rfl, rfl⟩ := Prod.mk.inj (Except.ok.inj h)
      refine ⟨[a, b, c, d], List.cons_ne_nil _ _, rfl, fun back => ?_⟩
      simp only [List.map_cons, List.map_nil, List.cons_append, List.nil_append, readHex, ha, hb,
        hc, hd]
    · cases h
  · split at h <;> cases h

theorem local_readCodePoint : Local readCodePoint := by
  intro input s rest h
  unfold readCodePoint at h
  split at h
  · cases h
  rename_i n rest₁ hhex
  obtain ⟨front, hne, rfl, hfront⟩ := local_readHex hhex
  split at h
  · cases h
  rename_i hlone
  split at h
  · rename_i hplain
    obtain ⟨rfl, rfl⟩ := Prod.mk.inj (Except.ok.inj h)
    refine ⟨front, hne, rfl, fun back => ?_⟩
    simp only [readCodePoint, hfront, if_neg hlone, if_pos hplain]
  rename_i hpair
  -- a second surrogate follows
  split at h
  · cases h
  · cases h
  · split at h
    · cases h
    rename_i rest₂ m rest₃ hhex₂
    obtain ⟨front₂, -, rfl, hfront₂⟩ := local_readHex hhex₂
    split at h
    · cases h
    rename_i hlow
    obtain ⟨rfl, rfl⟩ := Prod.mk.inj (Except.ok.inj h)
    refine ⟨front ++ '\\' :: 'u' :: front₂, by simp, by simp, fun back => ?_⟩
    simp only [List.map_append, List.map_cons, List.append_assoc, List.cons_append, readCodePoint,
      hfront, hfront₂, if_neg hlone, if_neg hpair, if_neg hlow]
  · cases h

theorem local_readEscape : Local readEscape := by
  intro input s rest h
  unfold readEscape at h
  split at h
  case h_1 => cases h
  case h_10 rest₁ =>
    obtain ⟨front, -, rfl, hfront⟩ := local_readCodePoint h
    exact ⟨'u' :: front, List.cons_ne_nil _ _, rfl, hfront⟩
  case h_11 => cases h
  all_goals
    obtain ⟨rfl, rfl⟩ := Prod.mk.inj (Except.ok.inj h)
    exact ⟨[_], List.cons_ne_nil _ _, rfl, fun back => rfl⟩

/-- A string has no stray byte. -/
theorem none_not_mem_of_textOf {symbols : List Symbol} {s : String} (h : textOf symbols = .ok s) :
    none ∉ symbols := by
  unfold textOf at h
  split at h
  · rename_i cs hcs
    clear h
    induction symbols generalizing cs with
    | nil => exact List.not_mem_nil
    | cons a symbols ih =>
      simp only [List.mapM_cons, Option.bind_eq_bind, Option.bind_eq_some_iff, id] at hcs
      obtain ⟨c, rfl, ds, hds, -⟩ := hcs
      simpa using ih ds hds
  · cases h

/-- Inside a string, every symbol but those of escapes is kept. -/
theorem readString_front {fuel : Nat} {acc input : List Symbol} {s : String} {rest : List Symbol}
    (h : readString fuel acc input = .ok (s, rest)) :
    none ∉ acc ∧ ∃ front : List Char, front ≠ [] ∧ input = front.map some ++ rest ∧
      ∀ {k : Nat} (back : List Symbol), front.length ≤ k →
        readString k acc (front.map some ++ back) = .ok (s, back) := by
  fun_induction readString fuel acc input with
  | case3 fuel acc input t ht =>
    obtain ⟨rfl, rfl⟩ := Prod.mk.inj (Except.ok.inj h)
    refine ⟨fun hnone => none_not_mem_of_textOf ht (List.mem_reverse.2 hnone), ['"'],
      List.cons_ne_nil _ _, rfl, fun {fuel'} back hfuel => ?_⟩
    obtain ⟨fuel', rfl⟩ := Nat.exists_eq_add_of_le' (show 1 ≤ fuel' from hfuel)
    simp only [List.map_cons, List.map_nil, List.cons_append, List.nil_append, readString, ht]
  | case5 fuel acc input c rest₁ hescape ih =>
    obtain ⟨front, -, rfl, hfront⟩ := local_readEscape hescape
    obtain ⟨hacc, front₂, -, rfl, hfront₂⟩ := ih h
    refine ⟨fun hnone => hacc (List.mem_cons_of_mem _ hnone), '\\' :: (front ++ front₂),
      List.cons_ne_nil _ _, by simp, fun {fuel'} back hfuel => ?_⟩
    rw [List.length_cons, List.length_append] at hfuel
    obtain ⟨fuel', rfl⟩ := Nat.exists_eq_add_of_le' (show 1 ≤ fuel' by omega)
    simp only [List.map_cons, List.map_append, List.cons_append, List.append_assoc, readString,
      hfront]
    exact hfront₂ back (by omega)
  | case8 fuel acc input c hcontrol hquote hslash ih =>
    obtain ⟨hacc, front, -, rfl, hfront⟩ := ih h
    refine ⟨fun hnone => hacc (List.mem_cons_of_mem _ hnone), c :: front,
      List.cons_ne_nil _ _, rfl, fun {fuel'} back hfuel => ?_⟩
    rw [List.length_cons] at hfuel
    obtain ⟨fuel', rfl⟩ := Nat.exists_eq_add_of_le' (show 1 ≤ fuel' by omega)
    rw [List.map_cons, List.cons_append, readString]
    · rw [if_neg hcontrol]
      exact hfront back (by omega)
    · simpa using hquote
    · simpa using hslash
  | case9 fuel acc input hquote hslash ih => exact absurd (List.mem_cons_self ..) (ih h).1
  | _ => cases h

theorem local_readText : Local readText := by
  intro input s rest h
  obtain ⟨-, front, hne, rfl, hfront⟩ := readString_front h
  refine ⟨front, hne, rfl, fun back => hfront back ?_⟩
  rw [List.length_append, List.length_map]
  omega

/-! ## Numbers -/

/-- The reader takes a number off the front, and reads the same with any text behind it that does
    not go on with a number. -/
def LocalNumber (read : List Symbol → Document × List Symbol) : Prop :=
  ∀ {input : List Symbol} {d : Document} {rest : List Symbol}, read input = (d, rest) →
    d.isBroken = false → (∃ x, d = .number x) ∧
      ∃ front : List Char, front ≠ [] ∧ input = front.map some ++ rest ∧
        ∀ {back}, EndsNumber back → read (front.map some ++ back) = (d, back)

theorem exists_digits (input : List Symbol) :
    ∃ ds : List Char, (∀ c ∈ ds, Numeral.isDigit c = true) ∧
      input.takeWhile isDigit = ds.map some ∧ input = ds.map some ++ input.dropWhile isDigit := by
  induction input with
  | nil => exact ⟨[], by simp, rfl, rfl⟩
  | cons s input ih =>
    by_cases hs : isDigit s = true
    · cases s with
      | none => cases hs
      | some c =>
        obtain ⟨ds, hds, htake, hdrop⟩ := ih
        refine ⟨c :: ds, List.forall_mem_cons.2 ⟨hs, hds⟩, ?_, ?_⟩
        · rw [List.takeWhile_cons_of_pos hs, htake, List.map_cons]
        · rw [List.dropWhile_cons_of_pos hs, List.map_cons, List.cons_append, ← hdrop]
    · refine ⟨[], by simp, ?_, ?_⟩
      · rw [List.takeWhile_cons_of_neg hs, List.map_nil]
      · rw [List.dropWhile_cons_of_neg hs, List.map_nil, List.nil_append]

theorem numberResult_eq {rest rest' : List Symbol} {x : Except Fault Double} {d : Document}
    (h : numberResult rest x = (d, rest')) (hd : d.isBroken = false) :
    (∃ x, d = .number x) ∧ rest = rest' ∧ ∀ back, numberResult back x = (d, back) := by
  cases x with
  | ok x =>
    obtain ⟨rfl, rfl⟩ := Prod.mk.inj h
    exact ⟨⟨_, rfl⟩, rfl, fun back => rfl⟩
  | error f =>
    obtain ⟨rfl, -⟩ := Prod.mk.inj h
    cases hd

variable {negative : Bool} {digits : Nat} {e : Int}

/-- The sign of an exponent, and what stands behind it. -/
def exponentSign (input : List Symbol) : Bool × List Symbol :=
  match input with
  | some '+' :: rest => (false, rest)
  | some '-' :: rest => (true, rest)
  | _ => (false, input)

/-- Reads an exponent behind its sign. -/
def readPower (negative : Bool) (digits : Nat) (e : Int) (down : Bool) (ds : List Symbol) :
    Document × List Symbol :=
  match ds with
  | [] => (.broken .endInValue, [])
  | d :: _ =>
    if isDigit d then
      let power : Int := (ds.takeWhile isDigit).foldl (fun n c => 10 * n + digitOf c) 0
      numberResult (ds.dropWhile isDigit)
        (scaleByTen negative digits (if down then e - power else e + power))
    else (.broken .badNumber, [])

theorem readExponent_eq (input : List Symbol) :
    readExponent negative digits e input =
      readPower negative digits e (exponentSign input).1 (exponentSign input).2 := rfl

theorem exponentSign_front (input : List Symbol) :
    ∃ sign : List Char, input = sign.map some ++ (exponentSign input).2 ∧
      ∀ {c : Char} {back : List Symbol}, Numeral.isDigit c = true →
        exponentSign (sign.map some ++ some c :: back) =
          ((exponentSign input).1, some c :: back) := by
  unfold exponentSign
  split
  · exact ⟨['+'], rfl, fun _ => rfl⟩
  · exact ⟨['-'], rfl, fun _ => rfl⟩
  · refine ⟨[], rfl, fun {c back} hc => ?_⟩
    rw [List.map_nil, List.nil_append]
    split
    · rename_i heq
      rw [Option.some.inj (List.cons.inj heq).1] at hc
      cases hc
    · rename_i heq
      rw [Option.some.inj (List.cons.inj heq).1] at hc
      cases hc
    · rfl

/-- A number that begins with digits is read from them on. -/
theorem readPower_front {down : Bool} {input : List Symbol} {d : Document} {rest : List Symbol}
    (h : readPower negative digits e down input = (d, rest)) (hd : d.isBroken = false) :
    (∃ x, d = .number x) ∧ ∃ (c : Char) (ds : List Char), Numeral.isDigit c = true ∧
      input = (c :: ds).map some ++ rest ∧ ∀ {back}, EndsNumber back →
        readPower negative digits e down ((c :: ds).map some ++ back) = (d, back) := by
  unfold readPower at h
  split at h
  · rw [← (Prod.mk.inj h).1] at hd
    cases hd
  rename_i s more
  split at h
  case isFalse =>
    rw [← (Prod.mk.inj h).1] at hd
    cases hd
  case isTrue hs =>
    obtain ⟨ds, hds, htake, hdrop⟩ := exists_digits (s :: more)
    dsimp only at h
    rw [htake] at h
    obtain ⟨hnumber, hrest, hresult⟩ := numberResult_eq h hd
    rw [hrest] at hdrop
    cases ds with
    | nil => simp [List.takeWhile_cons_of_pos hs] at htake
    | cons c ds =>
      have hc := hds c (List.mem_cons_self ..)
      refine ⟨hnumber, c, ds, hc, hdrop, fun {back} hback => ?_⟩
      obtain ⟨htake', hdrop'⟩ := span_symbols hds fun s hs => (hback s hs).1
      rw [List.map_cons, List.cons_append] at htake' hdrop' ⊢
      rw [readPower, if_pos (show isDigit (some c) = true from hc), htake', hdrop']
      exact hresult back

theorem localNumber_readExponent : LocalNumber (readExponent negative digits e) := by
  intro input d rest h hd
  rw [readExponent_eq] at h
  obtain ⟨sign, hinput, hsign⟩ := exponentSign_front input
  obtain ⟨hnumber, c, ds, hc, hpower, hfront⟩ := readPower_front h hd
  refine ⟨hnumber, sign ++ c :: ds, by simp, ?_, fun {back} hback => ?_⟩
  · rw [List.map_append, List.append_assoc, ← hpower, ← hinput]
  · have hread := hfront hback
    rw [List.map_cons, List.cons_append] at hread
    rw [List.map_append, List.append_assoc, List.map_cons, List.cons_append, readExponent_eq,
      hsign hc]
    exact hread

/-- What stands behind the last digit of a fraction. -/
def readBehindFraction (negative : Bool) (digits : Nat) (e : Int) (input : List Symbol) :
    Document × List Symbol :=
  match input with
  | some 'e' :: more => readExponent negative digits e more
  | some 'E' :: more => readExponent negative digits e more
  | _ => numberResult input (scaleByTen negative digits e)

/-- What stands behind the last digit of the whole part of a number. -/
def readBehindWhole (negative : Bool) (digits left : Nat) (input : List Symbol) :
    Document × List Symbol :=
  match input with
  | some '.' :: more => readFraction negative digits left more
  | some 'e' :: more => readExponent negative digits left more
  | some 'E' :: more => readExponent negative digits left more
  | _ =>
    if left = 0 then (.number (wholeNumber negative digits), input)
    else numberResult input (scaleByTen negative digits left)

theorem readFraction_span {c : Char} {ds : List Char} {rest : List Symbol}
    (hds : ∀ c' ∈ c :: ds, Numeral.isDigit c' = true) (hr : ∀ s ∈ rest.head?, isDigit s = false) :
    readFraction negative digits e ((c :: ds).map some ++ rest) =
      readBehindFraction negative (absorb digits ((c :: ds).map some)).1
        (e - (((c :: ds).map some).length - (absorb digits ((c :: ds).map some)).2 : Nat))
        rest := by
  obtain ⟨htake, hdrop⟩ := span_symbols hds hr
  have hc : isDigit (some c) = true := hds c (List.mem_cons_self ..)
  rw [List.map_cons, List.cons_append] at htake hdrop ⊢
  rw [readFraction, if_pos hc, htake, hdrop]
  rfl

theorem readNumber_span {c : Char} {ds : List Char} {rest : List Symbol}
    (hds : ∀ c' ∈ c :: ds, Numeral.isDigit c' = true) (hr : ∀ s ∈ rest.head?, isDigit s = false) :
    readNumber negative ((c :: ds).map some ++ rest) =
      if c = '0' ∧ ds ≠ [] then (.broken .badNumber, [])
      else readBehindWhole negative (absorb 0 ((c :: ds).map some)).1
        (absorb 0 ((c :: ds).map some)).2 rest := by
  obtain ⟨htake, hdrop⟩ := span_symbols hds hr
  rw [List.forall_mem_cons] at hds
  have hc : isDigit (some c) = true := hds.1
  -- a second digit stands behind the first one if there is one in the run
  have hzero : (some c = some '0' && (match ds.map some ++ rest with
      | s :: _ => isDigit s
      | [] => false)) = true ↔ c = '0' ∧ ds ≠ [] := by
    cases ds with
    | nil => cases rest with
      | nil => simp
      | cons s rest => simp [hr s rfl]
    | cons d ds =>
      have hd : isDigit (some d) = true := hds.2 d (List.mem_cons_self ..)
      simp [hd]
  rw [List.map_cons, List.cons_append] at htake hdrop ⊢
  unfold readNumber
  dsimp only
  rw [htake, hdrop, if_neg (by rw [hc]; decide)]
  by_cases hz : c = '0' ∧ ds ≠ []
  · rw [if_pos hz]
    exact if_pos (hzero.2 hz)
  · rw [if_neg hz]
    exact if_neg (mt hzero.1 hz)

/-- What is read behind the digits of a number is read with any text behind it that does not go on
    with a number; digits do not go on either. -/
def LocalBehind (read : List Symbol → Document × List Symbol) : Prop :=
  ∀ {input : List Symbol} {d : Document} {rest : List Symbol}, read input = (d, rest) →
    d.isBroken = false → (∀ s ∈ input.head?, isDigit s = false) → (∃ x, d = .number x) ∧
      ∃ front : List Char, input = front.map some ++ rest ∧ ∀ {back}, EndsNumber back →
        (∀ s ∈ (front.map some ++ back).head?, isDigit s = false) ∧
          read (front.map some ++ back) = (d, back)

theorem localBehind_readBehindFraction : LocalBehind (readBehindFraction negative digits e) := by
  intro input d rest h hd hdigit
  have hend : ∀ {back}, EndsNumber back → readBehindFraction negative digits e back =
      numberResult back (scaleByTen negative digits e) := by
    intro back hback
    unfold readBehindFraction
    split
    · exact absurd rfl (hback _ rfl).2.2.1
    · exact absurd rfl (hback _ rfl).2.2.2
    · rfl
  unfold readBehindFraction at h
  split at h
  · obtain ⟨hnumber, front, -, rfl, hfront⟩ := localNumber_readExponent h hd
    exact ⟨hnumber, 'e' :: front, rfl, fun hback => ⟨by simp; decide, hfront hback⟩⟩
  · obtain ⟨hnumber, front, -, rfl, hfront⟩ := localNumber_readExponent h hd
    exact ⟨hnumber, 'E' :: front, rfl, fun hback => ⟨by simp; decide, hfront hback⟩⟩
  · obtain ⟨hnumber, rfl, hresult⟩ := numberResult_eq h hd
    refine ⟨hnumber, [], rfl, fun {back} hback => ⟨fun s hs => (hback s hs).1, ?_⟩⟩
    rw [List.map_nil, List.nil_append, hend hback, hresult]

theorem head_dropWhile (input : List Symbol) :
    ∀ s ∈ (input.dropWhile isDigit).head?, isDigit s = false := by
  intro s hs
  have hnot := List.head?_dropWhile_not isDigit input
  rw [Option.mem_def.1 hs] at hnot
  simpa using hnot

/-- A reader that finds fault with a text without a digit in front reads digits. -/
theorem exists_digits_of_read {read : List Symbol → Document × List Symbol}
    (hread : ∀ {input}, (∀ s ∈ input.head?, isDigit s = false) → (read input).1.isBroken = true)
    {input : List Symbol} (h : (read input).1.isBroken = false) :
    ∃ (c : Char) (ds : List Char), (∀ c' ∈ c :: ds, Numeral.isDigit c' = true) ∧
      input = (c :: ds).map some ++ input.dropWhile isDigit := by
  obtain ⟨ds, hds, -, hdrop⟩ := exists_digits input
  cases ds with
  | nil =>
    have hhead := head_dropWhile input
    rw [List.map_nil, List.nil_append] at hdrop
    rw [← hdrop] at hhead
    rw [hread hhead] at h
    cases h
  | cons c ds => exact ⟨c, ds, hds, hdrop⟩

theorem localNumber_readFraction : LocalNumber (readFraction negative digits e) := by
  intro input d rest h hd
  have hbroken : ∀ {input}, (∀ s ∈ input.head?, isDigit s = false) →
      (readFraction negative digits e input).1.isBroken = true := by
    intro input hhead
    cases input with
    | nil => rfl
    | cons s input =>
      rw [readFraction, if_neg (by rw [hhead s rfl]; decide)]
      rfl
  obtain ⟨c, ds, hds, hdrop⟩ := exists_digits_of_read hbroken (by rw [h]; exact hd)
  rw [hdrop, readFraction_span hds (head_dropWhile input)] at h
  obtain ⟨hnumber, front, hinput, hfront⟩ := localBehind_readBehindFraction h hd (head_dropWhile input)
  refine ⟨hnumber, c :: ds ++ front, List.cons_ne_nil _ _, ?_, fun {back} hback => ?_⟩
  · rw [List.map_append, List.append_assoc, ← hinput, ← hdrop]
  · rw [List.map_append, List.append_assoc, readFraction_span hds (hfront hback).1]
    exact (hfront hback).2

theorem localBehind_readBehindWhole {left : Nat} :
    LocalBehind (readBehindWhole negative digits left) := by
  intro input d rest h hd hdigit
  have hend : ∀ {back}, EndsNumber back → readBehindWhole negative digits left back =
      if left = 0 then (.number (wholeNumber negative digits), back)
      else numberResult back (scaleByTen negative digits left) := by
    intro back hback
    unfold readBehindWhole
    split
    · exact absurd rfl (hback _ rfl).2.1
    · exact absurd rfl (hback _ rfl).2.2.1
    · exact absurd rfl (hback _ rfl).2.2.2
    · rfl
  unfold readBehindWhole at h
  split at h
  · obtain ⟨hnumber, front, -, rfl, hfront⟩ := localNumber_readFraction h hd
    exact ⟨hnumber, '.' :: front, rfl, fun hback => ⟨by simp; decide, hfront hback⟩⟩
  · obtain ⟨hnumber, front, -, rfl, hfront⟩ := localNumber_readExponent h hd
    exact ⟨hnumber, 'e' :: front, rfl, fun hback => ⟨by simp; decide, hfront hback⟩⟩
  · obtain ⟨hnumber, front, -, rfl, hfront⟩ := localNumber_readExponent h hd
    exact ⟨hnumber, 'E' :: front, rfl, fun hback => ⟨by simp; decide, hfront hback⟩⟩
  · split at h
    · rename_i hleft
      obtain ⟨rfl, rfl⟩ := Prod.mk.inj h
      refine ⟨⟨_, rfl⟩, [], rfl, fun {back} hback => ⟨fun s hs => (hback s hs).1, ?_⟩⟩
      rw [List.map_nil, List.nil_append, hend hback, if_pos hleft]
    · rename_i hleft
      obtain ⟨hnumber, rfl, hresult⟩ := numberResult_eq h hd
      refine ⟨hnumber, [], rfl, fun {back} hback => ⟨fun s hs => (hback s hs).1, ?_⟩⟩
      rw [List.map_nil, List.nil_append, hend hback, if_neg hleft, hresult]

theorem isBroken_readNumber {input : List Symbol} (h : ∀ s ∈ input.head?, isDigit s = false) :
    (readNumber negative input).1.isBroken = true := by
  cases input with
  | nil => rfl
  | cons s input =>
    unfold readNumber
    dsimp only
    rw [if_pos (by rw [h s rfl]; rfl)]
    rfl

theorem localNumber_readNumber : LocalNumber (readNumber negative) := by
  intro input d rest h hd
  obtain ⟨c, ds, hds, hdrop⟩ := exists_digits_of_read isBroken_readNumber (by rw [h]; exact hd)
  rw [hdrop, readNumber_span hds (head_dropWhile input)] at h
  split at h
  · rw [← (Prod.mk.inj h).1] at hd
    cases hd
  rename_i hzero
  obtain ⟨hnumber, front, hinput, hfront⟩ := localBehind_readBehindWhole h hd (head_dropWhile input)
  refine ⟨hnumber, c :: ds ++ front, List.cons_ne_nil _ _, ?_, fun {back} hback => ?_⟩
  · rw [List.map_append, List.append_assoc, ← hinput, ← hdrop]
  · rw [List.map_append, List.append_assoc, readNumber_span hds (hfront hback).1, if_neg hzero]
    exact (hfront hback).2

/-! ## Documents without a fault -/

/-- There is no fault in the document. -/
def Whole (d : Document) : Prop := ∃ j, d.toJson? = .ok j

theorem Whole.isBroken {d : Document} (h : d.Whole) : d.isBroken = false := by
  obtain ⟨j, hj⟩ := h
  cases d with
  | broken f => cases hj
  | _ => rfl

theorem whole_of_toItems? {ds : List Document} {xs : List Json} (h : toItems? ds = .ok xs) :
    ∀ d ∈ ds, d.Whole := by
  induction ds generalizing xs with
  | nil => exact List.forall_mem_nil _
  | cons d ds ih =>
    rw [toItems?] at h
    split at h
    · cases h
    rename_i x hx
    split at h
    · cases h
    · rename_i ys hys
      exact List.forall_mem_cons.2 ⟨⟨x, hx⟩, ih hys⟩

theorem whole_of_toMembers? {ds : List (String × Document)} {ms : List (String × Json)}
    (h : toMembers? ds = .ok ms) : ∀ m ∈ ds, m.2.Whole := by
  induction ds generalizing ms with
  | nil => exact List.forall_mem_nil _
  | cons d ds ih =>
    rw [toMembers?] at h
    split at h
    · cases h
    rename_i x hx
    split at h
    · cases h
    · rename_i ys hys
      exact List.forall_mem_cons.2 ⟨⟨x, hx⟩, ih hys⟩

theorem Whole.array {ds : List Document} {ending : Option Fault}
    (h : (Document.array ds ending).Whole) : ending = none ∧ ∀ d ∈ ds, d.Whole := by
  obtain ⟨j, hj⟩ := h
  unfold toJson? at hj
  split at hj
  · cases hj
  · cases hj
  · rename_i xs hxs
    exact ⟨rfl, whole_of_toItems? hxs⟩

theorem Whole.object {ds : List (String × Document)} {ending : MembersEnd Document}
    (h : (Document.object ds ending).Whole) : ending = .closed ∧ ∀ m ∈ ds, m.2.Whole := by
  obtain ⟨j, hj⟩ := h
  unfold toJson? at hj
  split at hj
  · cases hj
  · cases hj
  · rename_i ms hms hending
    refine ⟨?_, whole_of_toMembers? hms⟩
    cases ending with
    | closed => rfl
    | _ => cases hending

/-! ## Values -/

theorem readWord_front {found : Document} {ws : List Char} {input : List Symbol} {d : Document}
    {rest : List Symbol} (h : readWord found ws input = (d, rest)) (hd : d.isBroken = false) :
    input = ws.map some ++ rest ∧ ∀ back, readWord found ws (ws.map some ++ back) = (d, back) := by
  induction ws generalizing input with
  | nil =>
    obtain ⟨rfl, rfl⟩ := Prod.mk.inj h
    exact ⟨rfl, fun back => rfl⟩
  | cons w ws ih =>
    cases input with
    | nil =>
      rw [← (Prod.mk.inj h).1] at hd
      cases hd
    | cons s input =>
      rw [readWord] at h
      split at h
      · rename_i hs
        obtain ⟨hinput, hback⟩ := ih h
        refine ⟨by rw [hs, hinput]; rfl, fun back => ?_⟩
        rw [List.map_cons, List.cons_append, readWord, if_pos rfl, hback]
      · rw [← (Prod.mk.inj h).1] at hd
        cases hd

section
variable {fuel n : Nat} {gap : List Char} (hgap : ∀ c ∈ gap, isGap c = true)
include hgap

theorem readItems_gap {first : Bool} {input : List Symbol} :
    readItems fuel n first (gap.map some ++ input) = readItems fuel n first input := by
  cases fuel with
  | zero => rw [readItems, readItems]
  | succ fuel => rw [readItems, readItems, skipBlank_gap hgap]

theorem readMembers_gap {first : Bool} {input : List Symbol} :
    readMembers fuel n first (gap.map some ++ input) = readMembers fuel n first input := by
  cases fuel with
  | zero => rw [readMembers, readMembers]
  | succ fuel => rw [readMembers, readMembers, skipBlank_gap hgap]

end

/-- It is enough to read a value that stands behind white space. -/
theorem exists_front_of_gap {n : Nat} {input rest : List Symbol} {gap front : List Char} {c : Char}
    {d : Document} (hgap : ∀ g ∈ gap, isGap g = true)
    (hinput : input = gap.map some ++ some c :: (front.map some ++ rest))
    (h : ∀ {k back}, 3 * (front.length + 1) ≤ k + 1 →
      ((∃ x, d = .number x) → EndsNumber back) →
      readValue (k + 1) n (some c :: (front.map some ++ back)) = (d, back)) :
    ∃ text : List Char, text ≠ [] ∧ input = text.map some ++ rest ∧
      ∀ {k back}, 3 * text.length ≤ k → ((∃ x, d = .number x) → EndsNumber back) →
        readValue k n (text.map some ++ back) = (d, back) := by
  refine ⟨gap ++ c :: front, by simp, by simp [hinput], fun {k back} hfuel hnumber => ?_⟩
  rw [List.length_append, List.length_cons] at hfuel
  obtain ⟨k, rfl⟩ := Nat.exists_eq_add_of_le' (show 1 ≤ k by omega)
  rw [List.map_append, List.append_assoc, readValue_gap hgap]
  exact h (by omega) hnumber

/-- With this much fuel, whatever is read whole is read from the front of the text, and in the same
    way with any text behind it and any fuel for three calls a character. -/
structure ReadsFront (fuel : Nat) : Prop where
  value : ∀ {n input d rest}, readValue fuel n input = (d, rest) → d.Whole →
    ∃ front : List Char, front ≠ [] ∧ input = front.map some ++ rest ∧
      ∀ {k back}, 3 * front.length ≤ k → ((∃ x, d = .number x) → EndsNumber back) →
        readValue k n (front.map some ++ back) = (d, back)
  items : ∀ {n first input ds rest}, readItems fuel n first input = (ds, none, rest) →
    (∀ d ∈ ds, d.Whole) → ∃ front : List Char, front ≠ [] ∧ input = front.map some ++ rest ∧
      (first = false → ∀ back, EndsNumber (front.map some ++ back)) ∧
      ∀ {k} back, 3 * front.length ≤ k →
        readItems k n first (front.map some ++ back) = (ds, none, back)
  item : ∀ {n input ds rest}, readItem fuel n input = (ds, none, rest) →
    (∀ d ∈ ds, d.Whole) → ∃ front : List Char, front ≠ [] ∧ input = front.map some ++ rest ∧
      ∀ {k} back, 3 * front.length ≤ k + 1 →
        readItem k n (front.map some ++ back) = (ds, none, back)
  members : ∀ {n first input ds rest}, readMembers fuel n first input = (ds, .closed, rest) →
    (∀ m ∈ ds, m.2.Whole) → ∃ front : List Char, front ≠ [] ∧ input = front.map some ++ rest ∧
      (first = false → ∀ back, EndsNumber (front.map some ++ back)) ∧
      ∀ {k} back, 3 * front.length ≤ k →
        readMembers k n first (front.map some ++ back) = (ds, .closed, back)
  member : ∀ {n input ds rest}, readMember fuel n input = (ds, .closed, rest) →
    (∀ m ∈ ds, m.2.Whole) → ∃ front : List Char, front ≠ [] ∧ input = front.map some ++ rest ∧
      ∀ {k} back, 3 * front.length ≤ k + 1 →
        readMember k n (front.map some ++ back) = (ds, .closed, back)

namespace ReadsFront

variable {fuel : Nat} (h : ReadsFront fuel)
include h

/-- A value behind white space. -/
theorem readValue {n : Nat} {input : List Symbol} {d : Document} {rest : List Symbol}
    (hread : readValue (fuel + 1) n input = (d, rest)) (hd : d.Whole) :
    ∃ front : List Char, front ≠ [] ∧ input = front.map some ++ rest ∧
      ∀ {k back}, 3 * front.length ≤ k → ((∃ x, d = .number x) → EndsNumber back) →
        Document.readValue k n (front.map some ++ back) = (d, back) := by
  have hbroken := hd.isBroken
  unfold Document.readValue at hread
  split at hread
  · rw [← (Prod.mk.inj hread).1] at hbroken
    cases hbroken
  -- a word
  case h_2 hskip | h_3 hskip | h_4 hskip =>
    obtain ⟨gap, hgap, rfl, -⟩ := exists_gap hskip
    obtain ⟨rfl, hword⟩ := readWord_front hread hbroken
    refine exists_front_of_gap hgap rfl fun {k back} _ _ => ?_
    rw [Document.readValue, skipBlank_of_not_gap rfl]
    exact hword back
  -- a number below zero
  case h_5 hskip =>
    obtain ⟨gap, hgap, rfl, -⟩ := exists_gap hskip
    obtain ⟨hx, front, -, rfl, hfront⟩ := localNumber_readNumber hread hbroken
    refine exists_front_of_gap hgap rfl fun {k back} _ hnumber => ?_
    rw [Document.readValue, skipBlank_of_not_gap rfl]
    exact hfront (hnumber hx)
  -- a string
  case h_6 hskip =>
    obtain ⟨gap, hgap, rfl, -⟩ := exists_gap hskip
    split at hread
    · rename_i s more htext
      obtain ⟨rfl, rfl⟩ := Prod.mk.inj hread
      obtain ⟨front, -, rfl, hfront⟩ := local_readText htext
      refine exists_front_of_gap hgap rfl fun {k back} _ _ => ?_
      rw [Document.readValue, skipBlank_of_not_gap rfl]
      simp only [hfront]
    · rw [← (Prod.mk.inj hread).1] at hbroken
      cases hbroken
  -- an array
  case h_7 hskip =>
    obtain ⟨gap, hgap, rfl, -⟩ := exists_gap hskip
    cases n with
    | zero =>
      rw [← (Prod.mk.inj hread).1] at hbroken
      cases hbroken
    | succ n =>
      dsimp only at hread
      obtain ⟨rfl, rfl⟩ := Prod.mk.inj hread
      obtain ⟨hending, hds⟩ := hd.array
      obtain ⟨front, -, hinput, -, hfront⟩ := h.items (Prod.ext rfl (Prod.ext hending rfl)) hds
      refine exists_front_of_gap hgap (by rw [← hinput]) fun {k back} hfuel _ => ?_
      rw [readValue_array (hfront back (by omega)), hending]
  -- an object
  case h_8 hskip =>
    obtain ⟨gap, hgap, rfl, -⟩ := exists_gap hskip
    cases n with
    | zero =>
      rw [← (Prod.mk.inj hread).1] at hbroken
      cases hbroken
    | succ n =>
      dsimp only at hread
      obtain ⟨rfl, rfl⟩ := Prod.mk.inj hread
      obtain ⟨hending, hds⟩ := hd.object
      obtain ⟨front, -, hinput, -, hfront⟩ := h.members (Prod.ext rfl (Prod.ext hending rfl)) hds
      refine exists_front_of_gap hgap (by rw [← hinput]) fun {k back} hfuel _ => ?_
      rw [readValue_object (hfront back (by omega)), hending]
  -- a number that begins with a digit
  case h_9 s more _ _ _ _ _ _ _ hskip =>
    obtain ⟨gap, hgap, rfl, -⟩ := exists_gap hskip
    split at hread
    · rename_i hs
      obtain ⟨hx, front, hne, hinput, hfront⟩ := localNumber_readNumber hread hbroken
      obtain ⟨c, front, rfl⟩ := List.exists_cons_of_ne_nil hne
      obtain ⟨rfl, rfl⟩ := List.cons.inj hinput
      refine exists_front_of_gap hgap rfl fun {k back} _ hnumber => ?_
      rw [readValue_digit hs]
      exact hfront (hnumber hx)
    · rw [← (Prod.mk.inj hread).1] at hbroken
      cases hbroken

/-- An item and the items behind it. -/
theorem readItem {n : Nat} {input : List Symbol} {ds : List Document} {rest : List Symbol}
    (hread : readItem (fuel + 1) n input = (ds, none, rest)) (hds : ∀ d ∈ ds, d.Whole) :
    ∃ front : List Char, front ≠ [] ∧ input = front.map some ++ rest ∧
      ∀ {k} back, 3 * front.length ≤ k + 1 →
        Document.readItem k n (front.map some ++ back) = (ds, none, back) := by
  unfold Document.readItem at hread
  dsimp only at hread
  split at hread
  · cases (Prod.mk.inj (Prod.mk.inj hread).2).1
  rename_i hbroken
  obtain ⟨rfl, hmore⟩ := Prod.mk.inj hread
  obtain ⟨hending, rfl⟩ := Prod.mk.inj hmore
  rw [List.forall_mem_cons] at hds
  obtain ⟨front, hne, hinput, hfront⟩ := h.value rfl hds.1
  obtain ⟨front₂, hne₂, hinput₂, hends, hfront₂⟩ :=
    h.items (Prod.ext rfl (Prod.ext hending rfl)) hds.2
  refine ⟨front ++ front₂, by simp [hne], ?_, fun {fuel'} back hfuel => ?_⟩
  · rw [List.map_append, List.append_assoc, ← hinput₂, ← hinput]
  · have hpos := List.length_pos_iff.2 hne
    have hpos₂ := List.length_pos_iff.2 hne₂
    rw [List.length_append] at hfuel
    obtain ⟨fuel', rfl⟩ := Nat.exists_eq_add_of_le' (show 1 ≤ fuel' by omega)
    have hvalue := hfront (k := fuel') (by omega) fun _ => hends rfl back
    rw [List.map_append, List.append_assoc, Document.readItem, hvalue]
    simp only [hbroken, hfront₂ (k := fuel') back (by omega), Bool.false_eq_true, if_false]

/-- Items up to the closing bracket. -/
theorem readItems {n : Nat} {first : Bool} {input : List Symbol} {ds : List Document}
    {rest : List Symbol} (hread : readItems (fuel + 1) n first input = (ds, none, rest))
    (hds : ∀ d ∈ ds, d.Whole) :
    ∃ front : List Char, front ≠ [] ∧ input = front.map some ++ rest ∧
      (first = false → ∀ back, EndsNumber (front.map some ++ back)) ∧
      ∀ {k} back, 3 * front.length ≤ k →
        Document.readItems k n first (front.map some ++ back) = (ds, none, back) := by
  unfold Document.readItems at hread
  split at hread
  · cases (Prod.mk.inj (Prod.mk.inj hread).2).1
  · rename_i hskip
    obtain ⟨gap, hgap, rfl, -⟩ := exists_gap hskip
    obtain ⟨rfl, hmore⟩ := Prod.mk.inj hread
    obtain ⟨-, rfl⟩ := Prod.mk.inj hmore
    refine ⟨gap ++ [']'], by simp, by simp, fun _ back => ?_, fun {fuel'} back hfuel => ?_⟩
    · rw [List.map_append, List.append_assoc]
      exact endsNumber_gap hgap (.inr (.inl rfl)) back
    · rw [List.length_append, List.length_singleton] at hfuel
      obtain ⟨fuel', rfl⟩ := Nat.exists_eq_add_of_le' (show 1 ≤ fuel' by omega)
      rw [List.map_append, List.append_assoc]
      exact readItems_end first hgap
  rename_i s more hend hskip
  obtain ⟨gap, hgap, rfl, hnot⟩ := exists_gap hskip
  cases first with
  | true =>
    rw [if_pos rfl] at hread
    obtain ⟨front, hne, hinput, hfront⟩ := h.item hread hds
    obtain ⟨c, front, rfl⟩ := List.exists_cons_of_ne_nil hne
    obtain ⟨rfl, rfl⟩ := List.cons.inj hinput
    refine ⟨gap ++ c :: front, by simp, by simp, (fun h => by cases h), fun {fuel'} back hfuel => ?_⟩
    rw [List.length_append, List.length_cons] at hfuel
    obtain ⟨fuel', rfl⟩ := Nat.exists_eq_add_of_le' (show 1 ≤ fuel' by omega)
    rw [List.map_append, List.append_assoc, List.map_cons, List.cons_append,
      readItems_first hgap (hnot c rfl) (by rintro rfl; exact hend rfl)]
    exact hfront back (by rw [List.length_cons]; omega)
  | false =>
    rw [if_neg Bool.false_ne_true] at hread
    split at hread
    case isFalse => cases (Prod.mk.inj (Prod.mk.inj hread).2).1
    rename_i hs
    subst hs
    split at hread
    · cases (Prod.mk.inj (Prod.mk.inj hread).2).1
    · cases (Prod.mk.inj (Prod.mk.inj hread).2).1
    rename_i hne hend₂
    obtain ⟨s₂, more₂, hskip₂⟩ := List.exists_cons_of_ne_nil fun heq => hne heq
    obtain ⟨gap₂, hgap₂, rfl, hnot₂⟩ := exists_gap hskip₂
    rw [hskip₂] at hread hend₂
    obtain ⟨front, hne, hinput, hfront⟩ := h.item hread hds
    obtain ⟨c, front, rfl⟩ := List.exists_cons_of_ne_nil hne
    obtain ⟨rfl, rfl⟩ := List.cons.inj hinput
    refine ⟨gap ++ ',' :: (gap₂ ++ c :: front), by simp, by simp, fun _ back => ?_,
      fun {fuel'} back hfuel => ?_⟩
    · rw [List.map_append, List.append_assoc]
      exact endsNumber_gap hgap (.inl rfl) _
    · rw [List.length_append, List.length_cons, List.length_append, List.length_cons] at hfuel
      obtain ⟨fuel', rfl⟩ := Nat.exists_eq_add_of_le' (show 1 ≤ fuel' by omega)
      rw [List.map_append, List.append_assoc, readItems_gap hgap, List.map_cons, List.cons_append,
        List.map_append, List.append_assoc, List.map_cons, List.cons_append,
        readItems_next hgap₂ (hnot₂ c rfl) (by rintro rfl; exact hend₂ _ rfl)]
      exact hfront back (by rw [List.length_cons]; omega)

/-- A member behind the quote of its key, and the members behind it. -/
theorem readMember {n : Nat} {input : List Symbol} {ds : List (String × Document)}
    {rest : List Symbol} (hread : readMember (fuel + 1) n input = (ds, .closed, rest))
    (hds : ∀ m ∈ ds, m.2.Whole) :
    ∃ front : List Char, front ≠ [] ∧ input = front.map some ++ rest ∧
      ∀ {k} back, 3 * front.length ≤ k + 1 →
        Document.readMember k n (front.map some ++ back) = (ds, .closed, back) := by
  unfold Document.readMember at hread
  split at hread
  · cases (Prod.mk.inj (Prod.mk.inj hread).2).1
  rename_i key more hkey
  obtain ⟨keyFront, -, rfl, hkeyFront⟩ := local_readText hkey
  split at hread
  · cases (Prod.mk.inj (Prod.mk.inj hread).2).1
  · rename_i value hskip
    obtain ⟨gap, hgap, rfl, -⟩ := exists_gap hskip
    dsimp only at hread
    split at hread
    · cases (Prod.mk.inj (Prod.mk.inj hread).2).1
    rename_i hbroken
    obtain ⟨rfl, hmore⟩ := Prod.mk.inj hread
    obtain ⟨hending, rfl⟩ := Prod.mk.inj hmore
    rw [List.forall_mem_cons] at hds
    obtain ⟨front, hne, hinput, hfront⟩ := h.value rfl hds.1
    obtain ⟨front₂, hne₂, hinput₂, hends, hfront₂⟩ :=
      h.members (Prod.ext rfl (Prod.ext hending rfl)) hds.2
    refine ⟨keyFront ++ (gap ++ ':' :: (front ++ front₂)), by simp, ?_,
      fun {fuel'} back hfuel => ?_⟩
    · simp only [List.map_append, List.map_cons, List.append_assoc, List.cons_append]
      rw [← hinput₂, ← hinput]
    · have hpos := List.length_pos_iff.2 hne
      have hpos₂ := List.length_pos_iff.2 hne₂
      simp only [List.length_append, List.length_cons] at hfuel
      obtain ⟨fuel', rfl⟩ := Nat.exists_eq_add_of_le' (show 1 ≤ fuel' by omega)
      have hvalue := hfront (k := fuel') (by omega) fun _ => hends rfl back
      simp only [List.map_append, List.map_cons, List.append_assoc, List.cons_append]
      rw [Document.readMember, hkeyFront]
      dsimp only
      rw [skipBlank_gap hgap, skipBlank_of_not_gap rfl]
      simp only [hvalue, hbroken, hfront₂ (k := fuel') back (by omega), Bool.false_eq_true,
        if_false]
  · cases (Prod.mk.inj (Prod.mk.inj hread).2).1

/-- Members up to the closing brace. -/
theorem readMembers {n : Nat} {first : Bool} {input : List Symbol}
    {ds : List (String × Document)} {rest : List Symbol}
    (hread : readMembers (fuel + 1) n first input = (ds, .closed, rest))
    (hds : ∀ m ∈ ds, m.2.Whole) :
    ∃ front : List Char, front ≠ [] ∧ input = front.map some ++ rest ∧
      (first = false → ∀ back, EndsNumber (front.map some ++ back)) ∧
      ∀ {k} back, 3 * front.length ≤ k →
        Document.readMembers k n first (front.map some ++ back) = (ds, .closed, back) := by
  unfold Document.readMembers at hread
  split at hread
  · cases (Prod.mk.inj (Prod.mk.inj hread).2).1
  · rename_i hskip
    obtain ⟨gap, hgap, rfl, -⟩ := exists_gap hskip
    obtain ⟨rfl, hmore⟩ := Prod.mk.inj hread
    obtain ⟨-, rfl⟩ := Prod.mk.inj hmore
    refine ⟨gap ++ ['\x7d'], by simp, by simp, fun _ back => ?_, fun {fuel'} back hfuel => ?_⟩
    · rw [List.map_append, List.append_assoc]
      exact endsNumber_gap hgap (.inr (.inr rfl)) back
    · rw [List.length_append, List.length_singleton] at hfuel
      obtain ⟨fuel', rfl⟩ := Nat.exists_eq_add_of_le' (show 1 ≤ fuel' by omega)
      rw [List.map_append, List.append_assoc]
      exact readMembers_end first hgap
  rename_i s more _ hskip
  obtain ⟨gap, hgap, rfl, -⟩ := exists_gap hskip
  cases first with
  | true =>
    rw [if_pos rfl] at hread
    split at hread
    case isFalse => cases (Prod.mk.inj (Prod.mk.inj hread).2).1
    rename_i hs
    subst hs
    obtain ⟨front, -, rfl, hfront⟩ := h.member hread hds
    refine ⟨gap ++ '"' :: front, by simp, by simp, (fun h => by cases h), fun {fuel'} back hfuel => ?_⟩
    rw [List.length_append, List.length_cons] at hfuel
    obtain ⟨fuel', rfl⟩ := Nat.exists_eq_add_of_le' (show 1 ≤ fuel' by omega)
    rw [List.map_append, List.append_assoc, List.map_cons, List.cons_append,
      readMembers_first hgap]
    exact hfront back (by omega)
  | false =>
    rw [if_neg Bool.false_ne_true] at hread
    split at hread
    case isFalse => cases (Prod.mk.inj (Prod.mk.inj hread).2).1
    rename_i hs
    subst hs
    split at hread
    case h_2 hskip₂ =>
      obtain ⟨gap₂, hgap₂, rfl, -⟩ := exists_gap hskip₂
      obtain ⟨front, -, rfl, hfront⟩ := h.member hread hds
      refine ⟨gap ++ ',' :: (gap₂ ++ '"' :: front), by simp, by simp, fun _ back => ?_,
        fun {fuel'} back hfuel => ?_⟩
      · rw [List.map_append, List.append_assoc]
        exact endsNumber_gap hgap (.inl rfl) _
      · rw [List.length_append, List.length_cons, List.length_append, List.length_cons] at hfuel
        obtain ⟨fuel', rfl⟩ := Nat.exists_eq_add_of_le' (show 1 ≤ fuel' by omega)
        rw [List.map_append, List.append_assoc, readMembers_gap hgap, List.map_cons,
          List.cons_append, List.map_append, List.append_assoc, List.map_cons, List.cons_append,
          readMembers_next hgap₂]
        exact hfront back (by omega)
    all_goals cases (Prod.mk.inj (Prod.mk.inj hread).2).1

end ReadsFront

/-- **Whatever is read whole is read from the front of the text, however much fuel there is.** -/
theorem readsFront (fuel : Nat) : ReadsFront fuel := by
  induction fuel with
  | zero =>
    constructor
    · intro n input d rest h hd
      rw [readValue] at h
      rw [← (Prod.mk.inj h).1] at hd
      cases hd.isBroken
    all_goals
      intros
      rename_i h _
      simp [readItems, readItem, readMembers, readMember] at h
  | succ fuel ih => exact ⟨ih.readValue, ih.readItems, ih.readItem, ih.readMembers, ih.readMember⟩

/-- **A value without a fault is read from the front of its text**, and the rest may be any other
    text, unless it goes on with a number. -/
theorem read_front {input : List Symbol} {d : Document} {rest : List Symbol}
    (h : read input = (d, rest)) (hd : d.Whole) :
    ∃ front : List Char, input = front.map some ++ rest ∧
      ∀ back, ((∃ x, d = .number x) → EndsNumber back) →
        read (front.map some ++ back) = (d, back) := by
  obtain ⟨front, -, rfl, hfront⟩ := (readsFront _).value h hd
  refine ⟨front, rfl, fun back hback => hfront ?_ hback⟩
  rw [List.length_append, List.length_map]
  omega

end Document

end GameConfig
