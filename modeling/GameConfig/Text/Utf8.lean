/-
  Text as it arrives: characters, and bytes that belong to none.

  `symbols` reads bytes as UTF-8.  Each well-formed sequence becomes its
  character; every other byte becomes `none`.  Text that is known to be well
  formed is `ofString`.
-/

namespace GameConfig.Text

/-- A character, or a byte outside every well-formed sequence. -/
abbrev Symbol := Option Char

/-- The symbols of a string. -/
def ofString (s : String) : List Symbol := s.toList.map some

/-- How many bytes a symbol takes. -/
def Symbol.size : Symbol → Nat
  | some c => c.utf8Size
  | none => 1

namespace Utf8

/-- A byte that continues a sequence. -/
def isTail (b : Nat) : Bool := 0x80 ≤ b && b ≤ 0xBF

/-- The second byte that may follow a leading byte. -/
def isSecond (lead b : Nat) : Bool :=
  if lead = 0xE0 then 0xA0 ≤ b && b ≤ 0xBF
  else if lead = 0xED then 0x80 ≤ b && b ≤ 0x9F
  else if lead = 0xF0 then 0x90 ≤ b && b ≤ 0xBF
  else if lead = 0xF4 then 0x80 ≤ b && b ≤ 0x8F
  else isTail b

/-- Bytes read as UTF-8. -/
def symbols : List Nat → List Symbol
  | [] => []
  | a :: rest =>
    if a < 0x80 then some (Char.ofNat a) :: symbols rest
    else match rest with
      | b :: rest₂ =>
        if 0xC2 ≤ a && a ≤ 0xDF && isTail b then
          some (Char.ofNat ((a - 0xC0) * 64 + (b - 0x80))) :: symbols rest₂
        else match rest₂ with
          | c :: rest₃ =>
            if 0xE0 ≤ a && a ≤ 0xEF && isSecond a b && isTail c then
              some (Char.ofNat (((a - 0xE0) * 64 + (b - 0x80)) * 64 + (c - 0x80))) ::
                symbols rest₃
            else match rest₃ with
              | d :: rest₄ =>
                if 0xF0 ≤ a && a ≤ 0xF4 && isSecond a b && isTail c && isTail d then
                  some (Char.ofNat ((((a - 0xF0) * 64 + (b - 0x80)) * 64 + (c - 0x80)) * 64 +
                    (d - 0x80))) :: symbols rest₄
                else none :: symbols (b :: c :: d :: rest₄)
              | [] => none :: symbols [b, c]
          | [] => none :: symbols [b]
      | [] => [none]
termination_by bytes => bytes.length

end Utf8

end GameConfig.Text
