import GameConfig.Emit.Lua.Literal
import Mathlib

/-
  What a literal in quotes means to Lua.

  `literal?` reads a literal in single quotes from the bytes of a source text,
  by the rules of Lua 5.4: which bytes end it, which ones it must not have, and
  what each escape stands for.

  * `body?_quoteChar`: what is written for one character is read as the bytes of
    that character, unless it is a carriage return;
  * `literal?_quoted`: a text without carriage returns is written as one literal
    that denotes it, and any other text as no literal at all.  The line feed is
    escaped, the other kind of line break is not.
-/

namespace GameConfig.Lua

/-! ## Reading -/

/-- The bytes of a text in UTF-8. -/
def bytes (s : String) : List UInt8 := s.toList.flatMap String.utf8EncodeChar

/-- The letters that stand for one byte behind a backslash. -/
def letters : List (Char × Char) := [
  ('a', '\x07'), ('b', '\x08'), ('t', '\t'), ('n', '\n'), ('v', '\x0b'), ('f', '\x0c'),
  ('r', '\r'), ('\\', '\\'), ('"', '"'), ('\'', '\'')]

def isBreak (b : UInt8) : Bool := b == '\n'.toUInt8 || b == '\r'.toUInt8

def isSpace (b : UInt8) : Bool := b == ' '.toUInt8 || ('\t'.toUInt8 ≤ b && b ≤ '\r'.toUInt8)

def isDecimal (b : UInt8) : Bool := '0'.toUInt8 ≤ b && b ≤ '9'.toUInt8

/-- The value of a hexadecimal digit. -/
def hexDigit? (b : UInt8) : Option Nat :=
  if isDecimal b then some (b - '0'.toUInt8).toNat
  else if 'a'.toUInt8 ≤ b && b ≤ 'f'.toUInt8 then some ((b - 'a'.toUInt8).toNat + 10)
  else if 'A'.toUInt8 ≤ b && b ≤ 'F'.toUInt8 then some ((b - 'A'.toUInt8).toNat + 10)
  else none

/-- The value of some digits. -/
def number (base : Nat) (digits : List Nat) : Nat := digits.foldl (fun n d => n * base + d) 0

/-- The bytes behind the first one of a code point in `count + 1` bytes. -/
def trailing (code count : Nat) : List UInt8 :=
  (List.range count).reverse.map fun i => UInt8.ofNat (128 + code / 64 ^ i % 64)

/-- A code point in UTF-8, which reaches up to `2 ^ 31` here. -/
def codePoint? (code : Nat) : Option (List UInt8) :=
  if code < 2 ^ 7 then some [UInt8.ofNat code]
  else if code < 2 ^ 11 then some (UInt8.ofNat (192 + code / 64) :: trailing code 1)
  else if code < 2 ^ 16 then some (UInt8.ofNat (224 + code / 64 ^ 2) :: trailing code 2)
  else if code < 2 ^ 21 then some (UInt8.ofNat (240 + code / 64 ^ 3) :: trailing code 3)
  else if code < 2 ^ 26 then some (UInt8.ofNat (248 + code / 64 ^ 4) :: trailing code 4)
  else if code < 2 ^ 31 then some (UInt8.ofNat (252 + code / 64 ^ 5) :: trailing code 5)
  else none

/-- Two hexadecimal digits. -/
def hexPair? : List UInt8 → Option (List UInt8 × List UInt8)
  | a :: b :: rest =>
    match hexDigit? a, hexDigit? b with
    | some x, some y => some ([UInt8.ofNat (x * 16 + y)], rest)
    | _, _ => none
  | _ => none

/-- Hexadecimal digits in braces. -/
def braced? : List UInt8 → Option (List UInt8 × List UInt8)
  | [] => none
  | b :: rest =>
    let digits := rest.takeWhile fun d => (hexDigit? d).isSome
    match rest.dropWhile fun d => (hexDigit? d).isSome with
    | [] => none
    | e :: rest =>
      if b = '\x7b'.toUInt8 ∧ digits ≠ [] ∧ e = '\x7d'.toUInt8 then
        (codePoint? (number 16 (digits.filterMap hexDigit?))).map fun bytes => (bytes, rest)
      else none

/-- Up to three decimal digits. -/
def decimal? (bs : List UInt8) : Option (List UInt8 × List UInt8) :=
  let digits := (bs.take 3).takeWhile isDecimal
  let value := number 10 (digits.filterMap hexDigit?)
  if digits ≠ [] ∧ value < 256 then some ([UInt8.ofNat value], bs.drop digits.length) else none

/-- What is behind a line break: two different marks make one break. -/
def behindBreak (b : UInt8) : List UInt8 → List UInt8
  | [] => []
  | c :: rest => if isBreak c && c != b then rest else c :: rest

/-- What a backslash stands for with the bytes behind it. -/
def escape? : List UInt8 → Option (List UInt8 × List UInt8)
  | [] => none
  | b :: rest =>
    match letters.find? fun p => p.1.toUInt8 == b with
    | some p => some ([p.2.toUInt8], rest)
    | none =>
      if isBreak b then some (['\n'.toUInt8], behindBreak b rest)
      else if b = 'x'.toUInt8 then hexPair? rest
      else if b = 'u'.toUInt8 then braced? rest
      else if b = 'z'.toUInt8 then some ([], rest.dropWhile isSpace)
      else decimal? (b :: rest)

theorem hexPair?_length {bs value rest : List UInt8} (h : hexPair? bs = some (value, rest)) :
    rest.length ≤ bs.length := by
  unfold hexPair? at h
  split at h
  · split at h
    · cases h
      simp only [List.length_cons]
      omega
    · cases h
  · cases h

theorem braced?_length {bs value rest : List UInt8} (h : braced? bs = some (value, rest)) :
    rest.length ≤ bs.length := by
  cases bs with
  | nil => cases h
  | cons b bs =>
    have hsuffix := (List.dropWhile_suffix (l := bs) fun d => (hexDigit? d).isSome).length_le
    unfold braced? at h
    dsimp only at h
    split at h
    · cases h
    rename_i e rest' hdrop
    split at h
    · obtain ⟨_, -, hpair⟩ := Option.map_eq_some_iff.1 h
      cases hpair
      rw [hdrop, List.length_cons] at hsuffix
      rw [List.length_cons]
      omega
    · cases h

theorem decimal?_length {bs value rest : List UInt8} (h : decimal? bs = some (value, rest)) :
    rest.length ≤ bs.length := by
  unfold decimal? at h
  dsimp only at h
  split at h
  · cases h
    rw [List.length_drop]
    omega
  · cases h

theorem behindBreak_length (b : UInt8) (bs : List UInt8) :
    (behindBreak b bs).length ≤ bs.length := by
  unfold behindBreak
  split
  · exact Nat.le_refl _
  · split <;> simp

theorem escape?_length {bs value rest : List UInt8} (h : escape? bs = some (value, rest)) :
    rest.length ≤ bs.length := by
  unfold escape? at h
  split at h
  · cases h
  rename_i b bs
  rw [List.length_cons]
  split at h
  · cases h
    omega
  split at h
  · cases h
    have := behindBreak_length b bs
    omega
  split at h
  · have := hexPair?_length h
    omega
  split at h
  · have := braced?_length h
    omega
  split at h
  · cases h
    have := (List.dropWhile_suffix isSpace (l := bs)).length_le
    omega
  · exact decimal?_length h

/-- The value of a literal behind its first quote, and what follows the literal.  The literal
    must be closed in its line. -/
def body? : List UInt8 → Option (List UInt8 × List UInt8)
  | [] => none
  | b :: rest =>
    if b = '\''.toUInt8 then some ([], rest)
    else if isBreak b then none
    else if b = '\\'.toUInt8 then
      match _h : escape? rest with
      | none => none
      | some (value, rest') => (body? rest').map fun p => (value ++ p.1, p.2)
    else (body? rest).map fun p => (b :: p.1, p.2)
termination_by bs => bs.length
decreasing_by
  · have := escape?_length ‹_›
    simp only [List.length_cons]
    omega
  · simp

/-- The value of the literal in single quotes at the front, and what follows it. -/
def literal? : List UInt8 → Option (List UInt8 × List UInt8)
  | [] => none
  | b :: rest => if b = '\''.toUInt8 then body? rest else none

/-! ## Reading what is written -/

/-- The byte has no role in a literal. -/
def IsPlain (b : UInt8) : Prop := b ≠ '\''.toUInt8 ∧ b ≠ '\\'.toUInt8 ∧ isBreak b = false

theorem body?_plain {front : List UInt8} (h : ∀ b ∈ front, IsPlain b) (rest : List UInt8) :
    body? (front ++ rest) = (body? rest).map fun p => (front ++ p.1, p.2) := by
  induction front with
  | nil => simp
  | cons b front ih =>
    obtain ⟨hquote, hslash, hbreak⟩ := h b List.mem_cons_self
    rw [List.cons_append, body?, if_neg hquote, if_neg (by simp [hbreak]), if_neg hslash,
      ih fun c hc => h c (List.mem_cons_of_mem b hc), Option.map_map]
    rfl

/-- A backslash and a letter are read as the byte that the letter stands for. -/
theorem body?_letter {p : Char × Char} {b : UInt8}
    (h : (letters.find? fun p => p.1.toUInt8 == b) = some p) (rest : List UInt8) :
    body? ('\\'.toUInt8 :: b :: rest) = (body? rest).map fun q => (p.2.toUInt8 :: q.1, q.2) := by
  have hescape : escape? (b :: rest) = some ([p.2.toUInt8], rest) := by
    simp only [escape?, h]
  rw [body?, if_neg (by decide), if_neg (by decide), if_pos rfl]
  split
  · rename_i hnone
    rw [hescape] at hnone
    cases hnone
  · rename_i value rest' hsome
    rw [hescape] at hsome
    cases hsome
    rfl

/-- A character is one byte with its number, or all of its bytes are beyond ASCII. -/
theorem toNat_of_mem_encode {c : Char} {b : UInt8} (hb : b ∈ String.utf8EncodeChar c) :
    b.toNat = c.toNat ∨ 128 ≤ b.toNat := by
  rw [← Char.toNat_val]
  unfold String.utf8EncodeChar at hb
  dsimp only at hb
  split at hb
  · left
    rw [List.mem_singleton.1 hb, UInt8.toNat_ofNat']
    omega
  · right
    split at hb
    · simp only [List.mem_cons, List.not_mem_nil, or_false] at hb
      rcases hb with rfl | rfl <;> rw [UInt8.toNat_ofNat'] <;> omega
    split at hb
    · simp only [List.mem_cons, List.not_mem_nil, or_false] at hb
      rcases hb with rfl | rfl | rfl <;> rw [UInt8.toNat_ofNat'] <;> omega
    · simp only [List.mem_cons, List.not_mem_nil, or_false] at hb
      rcases hb with rfl | rfl | rfl | rfl <;> rw [UInt8.toNat_ofNat'] <;> omega

/-- All characters but four are written in bytes without a role. -/
theorem isPlain_of_mem {c : Char} (hc : c ∉ ['\'', '\\', '\n', '\r']) {b : UInt8}
    (hb : b ∈ String.utf8EncodeChar c) : IsPlain b := by
  have hne : ∀ d ∈ ['\'', '\\', '\n', '\r'], d.toNat < 128 → b ≠ d.toUInt8 := by
    rintro d hd hlt rfl
    have hd8 : d.toUInt8.toNat = d.toNat := by
      rw [Char.toUInt8, UInt32.toNat_toUInt8, Char.toNat_val]
      omega
    rcases toNat_of_mem_encode hb with h | h
    · exact hc (Char.toNat_inj.1 (h.symm.trans hd8) ▸ hd)
    · omega
  refine ⟨hne _ (by decide) (by decide), hne _ (by decide) (by decide), ?_⟩
  simp [isBreak, hne '\n' (by decide) (by decide), hne '\r' (by decide) (by decide)]

theorem quoteChar_of_not_mem {c : Char} (hc : c ∉ ['\'', '\\', '\n', '\r']) : quoteChar c = [c] := by
  simp only [List.mem_cons, List.not_mem_nil, or_false, not_or] at hc
  unfold quoteChar
  split <;> simp_all

/-- **What is written for a character is read as its bytes**, except for the carriage return, at
    which the literal breaks off. -/
theorem body?_quoteChar (c : Char) (rest : List UInt8) :
    body? ((quoteChar c).flatMap String.utf8EncodeChar ++ rest) =
      if c = '\r' then none
      else (body? rest).map fun p => (String.utf8EncodeChar c ++ p.1, p.2) := by
  by_cases hc : c ∈ ['\'', '\\', '\n', '\r']
  · simp only [List.mem_cons, List.not_mem_nil, or_false] at hc
    rcases hc with rfl | rfl | rfl | rfl
    · exact body?_letter (p := ('\'', '\'')) rfl rest
    · exact body?_letter (p := ('\\', '\\')) rfl rest
    · exact body?_letter (p := ('n', '\n')) rfl rest
    · rw [if_pos rfl]
      change body? ('\r'.toUInt8 :: rest) = none
      rw [body?, if_neg (by decide), if_pos (by decide)]
  · have hr : c ≠ '\r' := fun h => hc (by simp [h])
    rw [quoteChar_of_not_mem hc, List.flatMap_singleton, if_neg hr,
      body?_plain fun b hb => isPlain_of_mem hc hb]

/-- **A text without carriage returns is read back, any other is not closed in its line.** -/
theorem body?_flatMap (cs : List Char) (rest : List UInt8) :
    body? ((cs.flatMap quoteChar ++ ['\'']).flatMap String.utf8EncodeChar ++ rest) =
      if '\r' ∈ cs then none else some (cs.flatMap String.utf8EncodeChar, rest) := by
  induction cs with
  | nil =>
    change body? ('\''.toUInt8 :: rest) = some ([], rest)
    rw [body?, if_pos rfl]
  | cons c cs ih =>
    rw [List.flatMap_cons, List.append_assoc, List.flatMap_append, List.append_assoc,
      body?_quoteChar, ih]
    by_cases hc : c = '\r'
    · simp [hc]
    by_cases hcs : '\r' ∈ cs
    · simp [hcs]
    · simp [Ne.symm hc, hc, hcs]

/-- A line feed is never in a literal, and a carriage return is if it is in the text. -/
theorem mem_quoted (s : String) :
    '\n' ∉ (quoted s).toList ∧ ('\r' ∈ (quoted s).toList ↔ '\r' ∈ s.toList) := by
  have hfeed : ∀ c, '\n' ∉ quoteChar c := by
    intro c
    unfold quoteChar
    split
    case h_4 hne => simpa [eq_comm] using hne
    all_goals decide
  have hreturn : ∀ c, '\r' ∈ quoteChar c ↔ '\r' = c := by
    intro c
    unfold quoteChar
    split <;> simp
  simp [quoted, hfeed, hreturn]

/-- **A text without carriage returns is written as one literal that denotes it**, whatever
    follows it; any other text is written as no literal at all.  The reason is a raw line break:
    a literal has no line feed, but every carriage return of its text. -/
theorem literal?_quoted (s : String) (rest : List UInt8) :
    literal? (bytes (quoted s) ++ rest) =
        (if '\r' ∈ s.toList then none else some (bytes s, rest)) ∧
      '\n' ∉ (quoted s).toList ∧ ('\r' ∈ (quoted s).toList ↔ '\r' ∈ s.toList) := by
  refine ⟨?_, mem_quoted s⟩
  rw [bytes, quoted, String.toList_ofList, List.flatMap_cons]
  change literal? ('\''.toUInt8 :: _) = _
  rw [literal?, if_pos rfl]
  exact body?_flatMap s.toList rest

example : literal? (bytes "'it\\'s' .. x") = some (bytes "it's", bytes " .. x") := by cbv

example : literal? (bytes "'\\65\\x42\\z  \\u\x7b20AC\x7d'") = some (bytes "AB€", []) := by cbv

theorem not_literal?_return :
    ¬ ∀ (s : String) (rest : List UInt8),
      literal? (bytes (quoted s) ++ rest) = some (bytes s, rest) := by
  intro hall
  have hnone : literal? (bytes (quoted "\r") ++ []) = none := by cbv
  have hsome := hall "\r" []
  rw [hnone] at hsome
  cases hsome

end GameConfig.Lua
