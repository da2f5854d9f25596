import GameConfig.Json.Document
import GameConfig.Json.Printer
import GameConfig.Proofs.Number.Digits
import Mathlib.Tactic.IntervalCases

/-
  Reading what was written.

  A JSON value may be written with white space between its parts: the compact
  and the indented text are two ways to do it (`Spacing`).  Read again, either
  gives the value that was written, with nothing left over, as long as the
  numbers in it are whole and it is not nested too deep (`Json.Readable`).

  * `readText_quoted`: strings;
  * `readNumber_digits`: whole numbers;
  * `readValue_chars`: values, in any spacing and with any text behind them;
  * `read?_compact`, `read?_pretty`: whole texts.
-/

namespace GameConfig

open Text Numeral

-- powers and sums are those of the core library, whatever algebra is imported
attribute [local instance (high)] instPowNat Zero.ofOfNat0

namespace Document

/-! ## Strings -/

/-- The escapes of control characters are read as these. -/
theorem readCodePoint_hex {n : Nat} (h : n < 32) (rest : List Symbol) :
    readCodePoint (some '0' :: some '0' :: some (Json.hexDigit (n / 16)) ::
      some (Json.hexDigit (n % 16)) :: rest) = .ok (some (Char.ofNat n), rest) := by
  interval_cases n <;> rfl

/-- A character inside a string is read as itself, in one step. -/
theorem readString_escapeChar (c : Char) (fuel : Nat) (acc rest : List Symbol) :
    readString (fuel + 1) acc ((Json.escapeChar c).map some ++ rest) =
      readString fuel (some c :: acc) rest := by
  have hnat : ∀ n, c.toNat = n → c = Char.ofNat n := fun n h => by rw [← h, Char.ofNat_toNat]
  unfold Json.escapeChar
  split
  · rename_i h; subst h; rfl
  split
  · rename_i h; subst h; rfl
  split
  · rename_i h; subst h; rfl
  split
  · rename_i h; subst h; rfl
  split
  · rename_i h; subst h; rfl
  split
  · rename_i h; rw [hnat _ h]; rfl
  split
  · rename_i h; rw [hnat _ h]; rfl
  split
  · rename_i h
    have hread := readCodePoint_hex h rest
    rw [Char.ofNat_toNat] at hread
    simp only [List.map_cons, List.map_nil, List.cons_append, List.nil_append, readString,
      readEscape, hread]
  · rename_i hquote hslash _ _ _ _ _ hcontrol
    simp only [List.map_cons, List.map_nil, List.cons_append, List.nil_append]
    rw [readString]
    · simp [hcontrol]
    · simpa using hquote
    · simpa using hslash

theorem textOf_map_some (cs : List Char) : textOf (cs.map some) = .ok (String.ofList cs) := by
  have hmap : (cs.map some).mapM id = some cs := by
    induction cs with
    | nil => rfl
    | cons c cs ih => simp [List.mapM_cons, ih]
  rw [textOf, hmap]

/-- The characters of a string up to its closing quote are read as the string. -/
theorem readString_flatMap (fuel : Nat) (read cs : List Char) (rest : List Symbol)
    (h : cs.length < fuel) :
    readString fuel (read.reverse.map some)
        ((cs.flatMap Json.escapeChar).map some ++ some '"' :: rest) =
      .ok (String.ofList (read ++ cs), rest) := by
  induction cs generalizing fuel read with
  | nil =>
    obtain ⟨fuel, rfl⟩ := Nat.exists_eq_add_of_lt h
    simp [readString, ← List.map_reverse, textOf_map_some]
  | cons c cs ih =>
    obtain ⟨fuel, rfl⟩ := Nat.exists_eq_add_of_lt h
    have hstep := ih ((c :: cs).length + fuel) (read ++ [c]) (by simp; omega)
    rw [List.flatMap_cons, List.map_append, List.append_assoc, readString_escapeChar]
    simpa using hstep

theorem length_le_flatMap_escapeChar (cs : List Char) :
    cs.length ≤ (cs.flatMap Json.escapeChar).length := by
  induction cs with
  | nil => simp
  | cons c cs ih =>
    have hc : 1 ≤ (Json.escapeChar c).length := by
      unfold Json.escapeChar
      split_ifs <;> simp
    rw [List.flatMap_cons, List.length_append, List.length_cons]
    omega

/-- **A string literal is read as its string.** -/
theorem readText_quoted (s : String) (rest : List Symbol) :
    readText (((s.toList.flatMap Json.escapeChar) ++ ['"']).map some ++ rest) = .ok (s, rest) := by
  have hlength := length_le_flatMap_escapeChar s.toList
  have hread := readString_flatMap ((((s.toList.flatMap Json.escapeChar) ++
    ['"']).map some ++ rest).length + 1) [] s.toList rest (by
      simp only [List.length_append, List.length_map]; omega)
  rw [readText]
  simpa using hread

/-! ## White space -/

/-- The characters between the parts of a text. -/
def isGap (c : Char) : Bool := c == ' ' || c == '\n' || c == '\t' || c == '\r'

theorem isGap_iff {c : Char} :
    isGap c = true ↔ c = ' ' ∨ c = '\n' ∨ c = '\t' ∨ c = '\r' := by
  simp [isGap, or_assoc]

theorem skipBlank_gap {gap : List Char} (h : ∀ c ∈ gap, isGap c = true) (input : List Symbol) :
    skipBlank (gap.map some ++ input) = skipBlank input := by
  induction gap with
  | nil => rfl
  | cons c gap ih =>
    rw [List.forall_mem_cons] at h
    rw [List.map_cons, List.cons_append, ← ih h.2]
    rcases isGap_iff.1 h.1 with rfl | rfl | rfl | rfl <;> rw [skipBlank]

theorem skipBlank_of_not_gap {c : Char} (h : isGap c = false) (input : List Symbol) :
    skipBlank (some c :: input) = some c :: input := by
  have hnot := (not_congr isGap_iff).1 (by rw [h]; exact Bool.false_ne_true)
  simp only [not_or] at hnot
  obtain ⟨hblank, hline, htab, hreturn⟩ := hnot
  unfold skipBlank
  split
  · rename_i heq; simp only [List.cons.injEq, Option.some.injEq] at heq; exact absurd heq.1 hblank
  · rename_i heq; simp only [List.cons.injEq, Option.some.injEq] at heq; exact absurd heq.1 hline
  · rename_i heq; simp only [List.cons.injEq, Option.some.injEq] at heq; exact absurd heq.1 htab
  · rename_i heq; simp only [List.cons.injEq, Option.some.injEq] at heq; exact absurd heq.1 hreturn
  · rfl

/-! ## Whole numbers -/

/-- No number goes on in this text. -/
def EndsNumber (rest : List Symbol) : Prop :=
  ∀ s ∈ rest.head?, isDigit s = false ∧ s ≠ some '.' ∧ s ≠ some 'e' ∧ s ≠ some 'E'

theorem digitsValue_mono (acc : Nat) (ds : List Char) : acc ≤ digitsValue acc ds := by
  induction ds generalizing acc with
  | nil => exact Nat.le_refl acc
  | cons d ds ih => exact Nat.le_trans (by omega) (ih (10 * acc + (d.toNat - '0'.toNat)))

/-- Digits of a number of 64 bits are all taken up. -/
theorem absorb_digits {acc : Nat} {ds : List Char} (h : digitsValue acc ds ≤ maxNat64) :
    absorb acc (ds.map some) = (digitsValue acc ds, 0) := by
  induction ds generalizing acc with
  | nil => rfl
  | cons d ds ih =>
    have hnext := digitsValue_mono (10 * acc + (d.toNat - '0'.toNat)) ds
    have hvalue : digitsValue acc (d :: ds) =
        digitsValue (10 * acc + (d.toNat - '0'.toNat)) ds := rfl
    rw [hvalue] at h ⊢
    rw [List.map_cons, absorb, digitOf, if_neg (by omega), ih h]

/-- Only the number zero begins with a zero. -/
theorem digitsOf_zero_cons {n : Nat} {ds : List Char} (h : digitsOf n = '0' :: ds) : ds = [] := by
  induction n using Nat.strongRecOn generalizing ds with
  | ind n ih =>
    unfold digitsOf at h ih
    rw [Nat.toDigits_eq_if (by decide)] at h
    split at h
    · simp_all
    · rename_i hten
      obtain ⟨c, cs, hcs⟩ := List.exists_cons_of_ne_nil
        (Nat.toDigits_ne_nil (n := n / 10) (b := 10))
      rw [hcs, List.cons_append, List.cons.injEq] at h
      obtain ⟨rfl, -⟩ := h
      -- the digits before the last one are those of a number that is not zero
      have hnil := ih (n / 10) (by omega) hcs
      have hvalue := digitsValue_digitsOf (n / 10)
      rw [digitsOf, hcs, hnil] at hvalue
      have hzero : n / 10 = 0 := hvalue.symm
      omega

theorem isDigit_some (c : Char) : isDigit (some c) = Numeral.isDigit c := rfl

/-- A run of digits is taken off to its end. -/
theorem span_symbols {ds : List Char} {rest : List Symbol}
    (hd : ∀ c ∈ ds, Numeral.isDigit c = true) (hr : ∀ s ∈ rest.head?, isDigit s = false) :
    (ds.map some ++ rest).takeWhile isDigit = ds.map some ∧
      (ds.map some ++ rest).dropWhile isDigit = rest := by
  have hds : ∀ s ∈ ds.map some, isDigit s = true := by
    intro s hs
    obtain ⟨c, hc, rfl⟩ := List.mem_map.1 hs
    exact hd c hc
  have hrest : rest.takeWhile isDigit = [] ∧ rest.dropWhile isDigit = rest := by
    cases rest with
    | nil => simp
    | cons s rest => simp [hr s rfl]
  rw [List.takeWhile_append_of_pos hds, List.dropWhile_append_of_pos hds, hrest.1, hrest.2]
  simp

/-- **The digits of a number of 64 bits are read as the number.** -/
theorem readNumber_digits (negative : Bool) {n : Nat} (hn : n ≤ maxNat64) {rest : List Symbol}
    (hr : EndsNumber rest) :
    readNumber negative ((digitsOf n).map some ++ rest) =
      (.number (wholeNumber negative n), rest) := by
  have hdigits : ∀ c ∈ digitsOf n, Numeral.isDigit c = true := fun c => isDigit_of_mem_digitsOf
  obtain ⟨htake, hdrop⟩ := span_symbols hdigits fun s hs => (hr s hs).1
  have habsorb : absorb 0 ((digitsOf n).map some) = (digitsValue 0 (digitsOf n), 0) :=
    absorb_digits (by rwa [digitsValue_digitsOf])
  rw [digitsValue_digitsOf] at habsorb
  obtain ⟨d, ds, hds⟩ := List.exists_cons_of_ne_nil (Nat.toDigits_ne_nil (n := n) (b := 10))
  have hcons : digitsOf n = d :: ds := hds
  have hzero : d = '0' → ds = [] := by
    rintro rfl
    exact digitsOf_zero_cons hcons
  rw [hcons] at htake hdrop habsorb hdigits ⊢
  rw [List.map_cons] at habsorb
  rw [List.map_cons, List.cons_append] at htake hdrop ⊢
  unfold readNumber
  dsimp only
  rw [htake, hdrop, habsorb, if_neg (by simp [isDigit_some, hdigits d])]
  -- no second digit stands behind a zero
  rw [if_neg]
  · dsimp only
    cases rest with
    | nil => rfl
    | cons s rest =>
      obtain ⟨-, hpoint, hlower, hupper⟩ := hr s rfl
      split
      · rename_i heq; exact absurd (List.cons.inj heq).1 hpoint
      · rename_i heq; exact absurd (List.cons.inj heq).1 hlower
      · rename_i heq; exact absurd (List.cons.inj heq).1 hupper
      · rfl
  · intro h
    simp only [Bool.and_eq_true, decide_eq_true_eq, Option.some.injEq] at h
    obtain ⟨hd, hmore⟩ := h
    rw [hzero hd] at hmore
    cases rest with
    | nil => cases hmore
    | cons s rest =>
      rw [List.map_nil, List.nil_append] at hmore
      exact absurd hmore (by simp [(hr s rfl).1])

end Document

/-! ## Spacing -/

/-- The white space between the parts of a text: before an item, a member or a closing bracket at
    a depth, and behind a colon. -/
structure Spacing where
  line : Nat → List Char
  colon : List Char
  line_gap : ∀ d, ∀ c ∈ line d, Document.isGap c = true
  colon_gap : ∀ c ∈ colon, Document.isGap c = true

namespace Spacing

/-- No white space at all. -/
def compact : Spacing where
  line _ := []
  colon := []
  line_gap _ := by simp
  colon_gap := by simp

/-- Each item and each member on a line of its own. -/
def pretty : Spacing where
  line := Json.lineBreak
  colon := [' ']
  line_gap d c hc := by
    rcases List.mem_cons.1 hc with rfl | hc
    · rfl
    · rw [List.eq_of_mem_replicate hc]; rfl
  colon_gap := by simp [Document.isGap]

end Spacing

namespace Json

mutual

/-- The text of a value at a depth, with some white space between its parts. -/
def chars (w : Spacing) (d : Nat) : Json → List Char
  | .null => nullChars
  | .bool b => boolChars b
  | .number n => n.chars
  | .string s => quoted s
  | .array [] => ['[', ']']
  | .array (x :: xs) => '[' :: (w.line (d + 1) ++ chars w (d + 1) x ++ itemsChars w d xs)
  | .object [] => ['\x7b', '\x7d']
  | .object ((k, v) :: ms) =>
    '\x7b' :: (w.line (d + 1) ++ quoted k ++ ':' :: (w.colon ++ chars w (d + 1) v) ++
      membersChars w d ms)

/-- The further items of an array, up to its end. -/
def itemsChars (w : Spacing) (d : Nat) : List Json → List Char
  | [] => w.line d ++ [']']
  | x :: xs => ',' :: (w.line (d + 1) ++ chars w (d + 1) x ++ itemsChars w d xs)

/-- The further members of an object, up to its end. -/
def membersChars (w : Spacing) (d : Nat) : List (String × Json) → List Char
  | [] => w.line d ++ ['\x7d']
  | (k, v) :: ms =>
    ',' :: (w.line (d + 1) ++ quoted k ++ ':' :: (w.colon ++ chars w (d + 1) v) ++
      membersChars w d ms)

end

mutual

theorem chars_compact (d : Nat) : ∀ j : Json, j.chars .compact d = j.compactChars
  | .null => rfl
  | .bool _ => rfl
  | .number _ => rfl
  | .string _ => rfl
  | .array [] => rfl
  | .array (x :: xs) => by
    rw [chars, compactChars, chars_compact (d + 1) x, itemsChars_compact d xs]; rfl
  | .object [] => rfl
  | .object ((k, v) :: ms) => by
    rw [chars, compactChars, chars_compact (d + 1) v, membersChars_compact d ms]; rfl

theorem itemsChars_compact (d : Nat) : ∀ xs : List Json, itemsChars .compact d xs = compactItems xs
  | [] => rfl
  | x :: xs => by
    rw [itemsChars, compactItems, chars_compact (d + 1) x, itemsChars_compact d xs]; rfl

theorem membersChars_compact (d : Nat) :
    ∀ ms : List (String × Json), membersChars .compact d ms = compactMembers ms
  | [] => rfl
  | (k, v) :: ms => by
    rw [membersChars, compactMembers, chars_compact (d + 1) v, membersChars_compact d ms]; rfl

end

mutual

theorem chars_pretty (d : Nat) : ∀ j : Json, j.chars .pretty d = j.prettyChars d
  | .null => by rw [prettyChars]; rfl
  | .bool _ => by rw [prettyChars]; rfl
  | .number _ => by rw [prettyChars]; rfl
  | .string _ => by rw [prettyChars]; rfl
  | .array [] => rfl
  | .array (x :: xs) => by
    rw [chars, prettyChars, chars_pretty (d + 1) x, itemsChars_pretty d xs]; rfl
  | .object [] => rfl
  | .object ((k, v) :: ms) => by
    rw [chars, prettyChars, chars_pretty (d + 1) v, membersChars_pretty d ms]; rfl

theorem itemsChars_pretty (d : Nat) : ∀ xs : List Json, itemsChars .pretty d xs = prettyItems d xs
  | [] => rfl
  | x :: xs => by
    rw [itemsChars, prettyItems, chars_pretty (d + 1) x, itemsChars_pretty d xs]; rfl

theorem membersChars_pretty (d : Nat) :
    ∀ ms : List (String × Json), membersChars .pretty d ms = prettyMembers d ms
  | [] => rfl
  | (k, v) :: ms => by
    rw [membersChars, prettyMembers, chars_pretty (d + 1) v, membersChars_pretty d ms]; rfl

end

/-- A value whose numbers are integers of 64 bits and whose keys differ, with arrays and objects
    nested at most so deep. -/
inductive Readable : Nat → Json → Prop
  | null {n : Nat} : Readable n .null
  | bool {n : Nat} {b : Bool} : Readable n (.bool b)
  | int {n : Nat} {i : Int} (least : minInt64 ≤ i) (most : i ≤ maxNat64) :
      Readable n (.number (.int i))
  | string {n : Nat} {s : String} : Readable n (.string s)
  | array {n : Nat} {xs : List Json} (items : ∀ x ∈ xs, Readable n x) : Readable (n + 1) (.array xs)
  | object {n : Nat} {ms : List (String × Json)} (keys : (Assoc.keys ms).Nodup)
      (members : ∀ m ∈ ms, Readable n m.2) : Readable (n + 1) (.object ms)

end Json

namespace Document

/-! ## Values -/

section
variable {fuel n : Nat} {gap : List Char} {c : Char} {cs input rest rest' : List Symbol}

theorem isBroken_ofJson (j : Json) : (ofJson j).isBroken = false := by
  cases j <;> rfl

/-- Behind the opening bracket comes an item. -/
theorem readItems_first (hgap : ∀ c ∈ gap, isGap c = true) (hc : isGap c = false) (hend : c ≠ ']') :
    readItems (fuel + 1) n true (gap.map some ++ some c :: cs) =
      readItem fuel n (some c :: cs) := by
  rw [readItems, skipBlank_gap hgap, skipBlank_of_not_gap hc]
  split
  · rename_i heq; cases heq
  · rename_i heq; simp only [List.cons.injEq, Option.some.injEq] at heq; exact absurd heq.1 hend
  · rename_i heq; rw [if_pos rfl, ← heq]

/-- Behind a comma comes an item. -/
theorem readItems_next (hgap : ∀ c ∈ gap, isGap c = true) (hc : isGap c = false) (hend : c ≠ ']') :
    readItems (fuel + 1) n false (some ',' :: (gap.map some ++ some c :: cs)) =
      readItem fuel n (some c :: cs) := by
  have hnext : skipBlank (gap.map some ++ some c :: cs) = some c :: cs := by
    rw [skipBlank_gap hgap, skipBlank_of_not_gap hc]
  rw [readItems, skipBlank_of_not_gap rfl]
  split
  · rename_i heq; cases heq
  · rename_i heq; simp at heq
  · rename_i heq
    obtain ⟨rfl, rfl⟩ := List.cons.inj heq
    rw [if_neg Bool.false_ne_true, if_pos rfl, hnext]
    split
    · rename_i heq; cases heq
    · rename_i heq; simp only [List.cons.injEq, Option.some.injEq] at heq; exact absurd heq.1 hend
    · rfl

theorem readItems_end (first : Bool) (hgap : ∀ c ∈ gap, isGap c = true) :
    readItems (fuel + 1) n first (gap.map some ++ some ']' :: rest) = ([], none, rest) := by
  rw [readItems, skipBlank_gap hgap, skipBlank_of_not_gap rfl]
  rfl

theorem readItem_of_readValue {x : Json} {ds : List Document}
    (hv : readValue fuel n input = (ofJson x, rest))
    (hi : readItems fuel n false rest = (ds, none, rest')) :
    readItem (fuel + 1) n input = (ofJson x :: ds, none, rest') := by
  rw [readItem, hv]
  simp only [isBroken_ofJson, hi, Bool.false_eq_true, if_false]

theorem readMembers_first (hgap : ∀ c ∈ gap, isGap c = true) :
    readMembers (fuel + 1) n true (gap.map some ++ some '"' :: cs) = readMember fuel n cs := by
  rw [readMembers, skipBlank_gap hgap, skipBlank_of_not_gap rfl]
  rfl

theorem readMembers_next (hgap : ∀ c ∈ gap, isGap c = true) :
    readMembers (fuel + 1) n false (some ',' :: (gap.map some ++ some '"' :: cs)) =
      readMember fuel n cs := by
  have hnext : skipBlank (gap.map some ++ some '"' :: cs) = some '"' :: cs := by
    rw [skipBlank_gap hgap, skipBlank_of_not_gap rfl]
  rw [readMembers, skipBlank_of_not_gap rfl]
  split
  · rename_i heq; cases heq
  · rename_i heq; simp at heq
  · rename_i heq
    obtain ⟨rfl, rfl⟩ := List.cons.inj heq
    rw [if_neg Bool.false_ne_true, if_pos rfl, hnext]
    rfl

theorem readMembers_end (first : Bool) (hgap : ∀ c ∈ gap, isGap c = true) :
    readMembers (fuel + 1) n first (gap.map some ++ some '\x7d' :: rest) =
      ([], .closed, rest) := by
  rw [readMembers, skipBlank_gap hgap, skipBlank_of_not_gap rfl]
  rfl

theorem readMember_of_readValue {k : String} {v : Json} {ds : List (String × Document)}
    (hv : readValue fuel n input = (ofJson v, rest))
    (hm : readMembers fuel n false rest = (ds, .closed, rest')) :
    readMember (fuel + 1) n
        (((k.toList.flatMap Json.escapeChar) ++ ['"']).map some ++ some ':' :: input) =
      ((k, ofJson v) :: ds, .closed, rest') := by
  rw [readMember, readText_quoted]
  dsimp only
  rw [skipBlank_of_not_gap rfl]
  simp only [hv, isBroken_ofJson, hm, Bool.false_eq_true, if_false]

end

/-- White space in front of a value is passed over. -/
theorem readValue_gap {gap : List Char} (h : ∀ c ∈ gap, isGap c = true) (fuel n : Nat)
    (input : List Symbol) :
    readValue fuel n (gap.map some ++ input) = readValue fuel n input := by
  cases fuel with
  | zero => rw [readValue, readValue]
  | succ fuel => rw [readValue, readValue, skipBlank_gap h]

/-- An integer begins with a sign or a digit. -/
theorem integerText_toList (i : Int) :
    (integerText i).toList = if i < 0 then '-' :: digitsOf i.natAbs else digitsOf i.natAbs := by
  unfold integerText
  split <;> simp

theorem isGap_of_isDigit {c : Char} (h : Numeral.isDigit c = true) :
    isGap c = false ∧ c ≠ ']' := by
  constructor
  · by_contra hgap
    rcases isGap_iff.1 (Bool.not_eq_false _ ▸ hgap) with rfl | rfl | rfl | rfl <;>
      exact absurd h (by decide)
  · rintro rfl
    exact absurd h (by decide)

/-- A value begins neither with white space nor with a closing bracket. -/
theorem exists_chars_cons {n : Nat} {j : Json} (h : j.Readable n) (w : Spacing) (d : Nat) :
    ∃ c cs, j.chars w d = c :: cs ∧ isGap c = false ∧ c ≠ ']' := by
  cases h with
  | null => exact ⟨_, _, rfl, rfl, by decide⟩
  | @bool _ b => cases b <;> exact ⟨_, _, rfl, rfl, by decide⟩
  | @int _ i =>
    rw [Json.chars, Json.Number.chars, integerText_toList]
    split
    · exact ⟨_, _, rfl, rfl, by decide⟩
    · obtain ⟨c, cs, hcs⟩ := List.exists_cons_of_ne_nil
        (Nat.toDigits_ne_nil (n := i.natAbs) (b := 10))
      refine ⟨c, cs, hcs, isGap_of_isDigit (isDigit_of_mem_digitsOf (n := i.natAbs) ?_)⟩
      rw [digitsOf, hcs]
      exact List.mem_cons_self ..
  | string => exact ⟨_, _, rfl, rfl, by decide⟩
  | @array _ xs => cases xs <;> exact ⟨_, _, rfl, rfl, by decide⟩
  | @object _ ms => cases ms <;> exact ⟨_, _, rfl, rfl, by decide⟩

theorem endsNumber_cons {c : Char} (h : c = ',' ∨ isGap c = true ∨ c = ']' ∨ c = '\x7d')
    (rest : List Symbol) : EndsNumber (some c :: rest) := by
  intro s hs
  obtain rfl : some c = s := Option.some.inj hs
  rw [isGap_iff] at h
  rcases h with rfl | (rfl | rfl | rfl | rfl) | rfl | rfl <;> decide

theorem endsNumber_nil : EndsNumber [] := by
  intro s hs
  cases hs

/-- A value that begins with a digit is a number. -/
theorem readValue_digit {c : Char} (hc : Numeral.isDigit c = true) (fuel n : Nat)
    (input : List Symbol) :
    readValue (fuel + 1) n (some c :: input) = readNumber false (some c :: input) := by
  have hne : ∀ x, Numeral.isDigit x = false → some c ≠ some x := by
    rintro x hx h
    rw [Option.some.inj h, hx] at hc
    cases hc
  rw [readValue, skipBlank_of_not_gap (isGap_of_isDigit hc).1]
  split
  case h_1 heq => cases heq
  case h_9 heq =>
    obtain ⟨rfl, rfl⟩ := List.cons.inj heq
    rw [if_pos (show isDigit (some c) = true from hc)]
  all_goals
    rename_i heq
    exact absurd (List.cons.inj heq).1 (hne _ rfl)

theorem readValue_int {i : Int} (least : minInt64 ≤ i) (most : i ≤ maxNat64) (fuel n : Nat)
    {rest : List Symbol} (hr : EndsNumber rest) :
    readValue (fuel + 1) n ((integerText i).toList.map some ++ rest) =
      (.number (.int i), rest) := by
  have hmin : minInt64 = -9223372036854775808 := rfl
  have hmax : maxNat64 = 18446744073709551615 := rfl
  have hread := readNumber_digits (decide (i < 0)) (n := i.natAbs) (by omega) hr
  rw [integerText_toList]
  split
  · rename_i hneg
    have hwhole : wholeNumber (decide (i < 0)) i.natAbs = .int i := by
      simp only [wholeNumber, hneg, decide_true, Bool.not_true, Bool.false_eq_true, if_false]
      rw [if_neg (by simp; omega)]
      congr 1
      omega
    rw [hwhole, decide_eq_true hneg] at hread
    rw [List.map_cons, List.cons_append, readValue, skipBlank_of_not_gap rfl]
    exact hread
  · rename_i hnonneg
    have hwhole : wholeNumber (decide (i < 0)) i.natAbs = .int i := by
      simp only [wholeNumber, hnonneg, decide_false, Bool.not_false, if_true]
      congr 1
      omega
    rw [hwhole, decide_eq_false hnonneg] at hread
    obtain ⟨c, cs, hcs⟩ := List.exists_cons_of_ne_nil
      (Nat.toDigits_ne_nil (n := i.natAbs) (b := 10))
    have hcons : digitsOf i.natAbs = c :: cs := hcs
    have hc : Numeral.isDigit c = true :=
      isDigit_of_mem_digitsOf (n := i.natAbs) (hcons ▸ List.mem_cons_self ..)
    rw [hcons, List.map_cons, List.cons_append] at hread ⊢
    rw [readValue_digit hc]
    exact hread

section
variable {fuel n : Nat} {input rest : List Symbol}

theorem readValue_null :
    readValue (fuel + 1) n (Json.nullChars.map some ++ rest) = (.null, rest) := by
  show readValue (fuel + 1) n (some 'n' :: _) = _
  rw [readValue, skipBlank_of_not_gap rfl]
  rfl

theorem readValue_bool (b : Bool) :
    readValue (fuel + 1) n ((Json.boolChars b).map some ++ rest) = (.bool b, rest) := by
  cases b with
  | true =>
    show readValue (fuel + 1) n (some 't' :: _) = _
    rw [readValue, skipBlank_of_not_gap rfl]
    rfl
  | false =>
    show readValue (fuel + 1) n (some 'f' :: _) = _
    rw [readValue, skipBlank_of_not_gap rfl]
    rfl

theorem readValue_string (s : String) :
    readValue (fuel + 1) n ((Json.quoted s).map some ++ rest) = (.string s, rest) := by
  have htext := readText_quoted s rest
  rw [Json.quoted, List.map_cons, List.cons_append, readValue, skipBlank_of_not_gap rfl]
  generalize (s.toList.flatMap Json.escapeChar ++ ['"']).map some ++ rest = input at htext
  simp [htext]

theorem readValue_array {ds : List Document} {ending : Option Fault}
    (h : readItems fuel n true input = (ds, ending, rest)) :
    readValue (fuel + 1) (n + 1) (some '[' :: input) = (.array ds ending, rest) := by
  have hread : readValue (fuel + 1) (n + 1) (some '[' :: input) =
      (.array (readItems fuel n true input).1 (readItems fuel n true input).2.1,
        (readItems fuel n true input).2.2) := by
    rw [readValue, skipBlank_of_not_gap rfl]
    rfl
  rw [hread, h]

theorem readValue_object {ds : List (String × Document)} {ending : MembersEnd Document}
    (h : readMembers fuel n true input = (ds, ending, rest)) :
    readValue (fuel + 1) (n + 1) (some '\x7b' :: input) = (.object ds ending, rest) := by
  have hread : readValue (fuel + 1) (n + 1) (some '\x7b' :: input) =
      (.object (readMembers fuel n true input).1 (readMembers fuel n true input).2.1,
        (readMembers fuel n true input).2.2) := by
    rw [readValue, skipBlank_of_not_gap rfl]
    rfl
  rw [hread, h]

end

/-- No number goes on behind an item or a member: there is white space, a comma or a bracket. -/
theorem endsNumber_gap {gap : List Char} (hgap : ∀ c ∈ gap, isGap c = true) {c : Char}
    (hc : c = ',' ∨ c = ']' ∨ c = '\x7d') (rest : List Symbol) :
    EndsNumber (gap.map some ++ some c :: rest) := by
  cases gap with
  | nil => exact endsNumber_cons (hc.imp_right .inr) _
  | cons g gap => exact endsNumber_cons (.inr (.inl (hgap g (List.mem_cons_self ..)))) _

theorem endsNumber_items (w : Spacing) (d : Nat) (xs : List Json) (rest : List Symbol) :
    EndsNumber ((Json.itemsChars w d xs).map some ++ rest) := by
  cases xs with
  | nil =>
    rw [Json.itemsChars, List.map_append, List.append_assoc]
    exact endsNumber_gap (w.line_gap d) (.inr (.inl rfl)) rest
  | cons x xs => exact endsNumber_cons (.inl rfl) _

theorem endsNumber_members (w : Spacing) (d : Nat) (ms : List (String × Json))
    (rest : List Symbol) : EndsNumber ((Json.membersChars w d ms).map some ++ rest) := by
  cases ms with
  | nil =>
    rw [Json.membersChars, List.map_append, List.append_assoc]
    exact endsNumber_gap (w.line_gap d) (.inr (.inr rfl)) rest
  | cons m ms => exact endsNumber_cons (.inl rfl) _

/-- The text of a value is not empty. -/
theorem length_chars_pos {n : Nat} {j : Json} (h : j.Readable n) (w : Spacing) (d : Nat) :
    1 ≤ (j.chars w d).length := by
  obtain ⟨c, cs, hcs, -⟩ := exists_chars_cons h w d
  rw [hcs, List.length_cons]
  omega

mutual

/-- **A written value is read as its document**, with what stands behind it left over. -/
theorem readValue_chars (w : Spacing) : ∀ (j : Json) {n : Nat} (fuel d : Nat) {rest : List Symbol},
    j.Readable n → 3 * (j.chars w d).length ≤ fuel → EndsNumber rest →
    readValue fuel n ((j.chars w d).map some ++ rest) = (ofJson j, rest)
  | .null, n, fuel, d, rest, h, hfuel, _ => by
    have hpos := length_chars_pos h w d
    obtain ⟨fuel, rfl⟩ := Nat.exists_eq_add_of_le' (show 1 ≤ fuel by omega)
    exact readValue_null
  | .bool b, n, fuel, d, rest, h, hfuel, _ => by
    have hpos := length_chars_pos h w d
    obtain ⟨fuel, rfl⟩ := Nat.exists_eq_add_of_le' (show 1 ≤ fuel by omega)
    exact readValue_bool b
  | .number x, n, fuel, d, rest, h, hfuel, hr => by
    have hpos := length_chars_pos h w d
    obtain ⟨fuel, rfl⟩ := Nat.exists_eq_add_of_le' (show 1 ≤ fuel by omega)
    cases h with
    | int least most => exact readValue_int least most fuel n hr
  | .string s, n, fuel, d, rest, h, hfuel, _ => by
    have hpos := length_chars_pos h w d
    obtain ⟨fuel, rfl⟩ := Nat.exists_eq_add_of_le' (show 1 ≤ fuel by omega)
    exact readValue_string s
  | .array [], n, fuel, d, rest, h, hfuel, _ => by
    cases h with
    | @array n _ _ =>
      simp only [Json.chars, List.length_cons, List.length_nil] at hfuel
      obtain ⟨fuel, rfl⟩ := Nat.exists_eq_add_of_le' (show 2 ≤ fuel by omega)
      exact readValue_array (readItems_end true (List.forall_mem_nil _))
  | .array (x :: xs), n, fuel, d, rest, h, hfuel, _ => by
    cases h with
    | @array n _ hitems =>
      rw [List.forall_mem_cons] at hitems
      simp only [Json.chars, List.length_cons, List.length_append] at hfuel
      obtain ⟨fuel, rfl⟩ := Nat.exists_eq_add_of_le' (show 3 ≤ fuel by omega)
      have hx := readValue_chars w x fuel (d + 1) hitems.1 (by omega)
        (endsNumber_items w d xs rest)
      have hxs := readItems_chars w xs fuel d rest hitems.2 (by omega)
      have hitem := readItem_of_readValue hx hxs
      obtain ⟨c, cs, hcs, hgap, hend⟩ := exists_chars_cons hitems.1 w (d + 1)
      simp only [Json.chars, hcs, List.map_cons, List.map_append, List.cons_append,
        List.append_assoc] at hitem ⊢
      refine readValue_array ?_
      rw [readItems_first (w.line_gap _) hgap hend]
      exact hitem
  | .object [], n, fuel, d, rest, h, hfuel, _ => by
    cases h with
    | @object n _ _ _ =>
      simp only [Json.chars, List.length_cons, List.length_nil] at hfuel
      obtain ⟨fuel, rfl⟩ := Nat.exists_eq_add_of_le' (show 2 ≤ fuel by omega)
      exact readValue_object (readMembers_end true (List.forall_mem_nil _))
  | .object ((k, v) :: ms), n, fuel, d, rest, h, hfuel, _ => by
    cases h with
    | @object n _ _ hmembers =>
      rw [List.forall_mem_cons] at hmembers
      simp only [Json.chars, List.length_cons, List.length_append] at hfuel
      obtain ⟨fuel, rfl⟩ := Nat.exists_eq_add_of_le' (show 3 ≤ fuel by omega)
      have hv := readValue_chars w v fuel (d + 1) hmembers.1 (by omega)
        (endsNumber_members w d ms rest)
      rw [← readValue_gap w.colon_gap] at hv
      have hms := readMembers_chars w ms fuel d rest hmembers.2
        (by omega)
      have hmember := readMember_of_readValue (k := k) hv hms
      simp only [Json.chars, Json.quoted, List.map_cons, List.map_append, List.cons_append,
        List.append_assoc] at hmember ⊢
      refine readValue_object ?_
      rw [readMembers_first (w.line_gap _)]
      exact hmember

theorem readItems_chars (w : Spacing) : ∀ (xs : List Json) {n : Nat} (fuel d : Nat) (rest : List Symbol),
    (∀ x ∈ xs, x.Readable n) → 3 * (Json.itemsChars w d xs).length ≤ fuel →
    readItems fuel n false ((Json.itemsChars w d xs).map some ++ rest) = (ofItems xs, none, rest)
  | [], n, fuel, d, rest, _, hfuel => by
    simp only [Json.itemsChars, List.length_append, List.length_cons] at hfuel
    obtain ⟨fuel, rfl⟩ := Nat.exists_eq_add_of_le' (show 1 ≤ fuel by omega)
    rw [Json.itemsChars, List.map_append, List.append_assoc]
    exact readItems_end false (w.line_gap d)
  | x :: xs, n, fuel, d, rest, h, hfuel => by
    rw [List.forall_mem_cons] at h
    simp only [Json.itemsChars, List.length_cons, List.length_append] at hfuel
    obtain ⟨fuel, rfl⟩ := Nat.exists_eq_add_of_le' (show 2 ≤ fuel by omega)
    have hx := readValue_chars w x fuel (d + 1) h.1 (by omega)
      (endsNumber_items w d xs rest)
    have hxs := readItems_chars w xs fuel d rest h.2 (by omega)
    have hitem := readItem_of_readValue hx hxs
    obtain ⟨c, cs, hcs, hgap, hend⟩ := exists_chars_cons h.1 w (d + 1)
    simp only [Json.itemsChars, hcs, List.map_cons, List.map_append, List.cons_append,
      List.append_assoc] at hitem ⊢
    rw [readItems_next (w.line_gap _) hgap hend]
    exact hitem

theorem readMembers_chars (w : Spacing) : ∀ (ms : List (String × Json)) {n : Nat} (fuel d : Nat)
    (rest : List Symbol), (∀ m ∈ ms, m.2.Readable n) →
    3 * (Json.membersChars w d ms).length ≤ fuel →
    readMembers fuel n false ((Json.membersChars w d ms).map some ++ rest) =
      (ofMembers ms, .closed, rest)
  | [], n, fuel, d, rest, _, hfuel => by
    simp only [Json.membersChars, List.length_append, List.length_cons] at hfuel
    obtain ⟨fuel, rfl⟩ := Nat.exists_eq_add_of_le' (show 1 ≤ fuel by omega)
    rw [Json.membersChars, List.map_append, List.append_assoc]
    exact readMembers_end false (w.line_gap d)
  | (k, v) :: ms, n, fuel, d, rest, h, hfuel => by
    rw [List.forall_mem_cons] at h
    simp only [Json.membersChars, List.length_cons, List.length_append] at hfuel
    obtain ⟨fuel, rfl⟩ := Nat.exists_eq_add_of_le' (show 2 ≤ fuel by omega)
    have hv := readValue_chars w v fuel (d + 1) h.1 (by omega)
      (endsNumber_members w d ms rest)
    rw [← readValue_gap w.colon_gap] at hv
    have hms := readMembers_chars w ms fuel d rest h.2 (by omega)
    have hmember := readMember_of_readValue (k := k) hv hms
    simp only [Json.membersChars, Json.quoted, List.map_cons, List.map_append, List.cons_append,
      List.append_assoc] at hmember ⊢
    rw [readMembers_next (w.line_gap _)]
    exact hmember

end

/-- A written text is read to its end. -/
theorem read_chars (w : Spacing) {j : Json} (h : j.Readable maxDepth) :
    read ((j.chars w 0).map some) = (ofJson j, []) := by
  have hread := readValue_chars w j (3 * ((j.chars w 0).map some).length + 3) 0 h
    (by rw [List.length_map]; omega) endsNumber_nil
  rwa [List.append_nil] at hread

theorem toItems?_ofItems {xs : List Json} (h : ∀ x ∈ xs, (ofJson x).toJson? = .ok x) :
    toItems? (ofItems xs) = .ok xs := by
  induction xs with
  | nil => rfl
  | cons x xs ih =>
    rw [List.forall_mem_cons] at h
    rw [ofItems, toItems?, h.1, ih h.2]

theorem toMembers?_ofMembers {ms : List (String × Json)}
    (h : ∀ m ∈ ms, (ofJson m.2).toJson? = .ok m.2) : toMembers? (ofMembers ms) = .ok ms := by
  induction ms with
  | nil => rfl
  | cons m ms ih =>
    rw [List.forall_mem_cons] at h
    rw [ofMembers, toMembers?, h.1, ih h.2]

/-- The document of a value has that value. -/
theorem toJson?_ofJson {n : Nat} {j : Json} (h : j.Readable n) : (ofJson j).toJson? = .ok j := by
  induction h with
  | array _ ih => simp only [ofJson, toJson?, toItems?_ofItems ih]
  | object hkeys _ ih =>
    simp only [ofJson, toJson?, toMembers?_ofMembers ih, endFault, Assoc.ofEntries_eq hkeys]
  | _ => rfl

end Document

namespace Json

variable {j : Json} (h : j.Readable Document.maxDepth)

theorem ofString_compact (j : Json) : ofString j.compact = (j.chars .compact 0).map some := by
  rw [compact, ofString, String.toList_ofList, chars_compact]

theorem ofString_pretty (j : Json) : ofString j.pretty = (j.chars .pretty 0).map some := by
  rw [pretty, ofString, String.toList_ofList, chars_pretty]

include h

theorem read_compact : Document.read (ofString j.compact) = (.ofJson j, []) := by
  rw [ofString_compact, Document.read_chars _ h]

theorem read_pretty : Document.read (ofString j.pretty) = (.ofJson j, []) := by
  rw [ofString_pretty, Document.read_chars _ h]

/-- **The compact text of a value is read as that value.** -/
theorem read?_compact : read? j.compact = .ok j := by
  rw [read?, read_compact h]
  simp [Document.toJson?_ofJson h, Document.skipBlank]

/-- **So is the indented text.** -/
theorem read?_pretty : read? j.pretty = .ok j := by
  rw [read?, read_pretty h]
  simp [Document.toJson?_ofJson h, Document.skipBlank]

end Json

end GameConfig
