/-
  Sets of characters as sorted ranges.

  A table of ranges is written as text: each range is the distance from the
  end of the one before it to its start and the number of characters that
  follow its first, both in base 36, with a comma between them and a blank
  behind; a range of one character leaves the second number out.
  `Ranges.ofText` reads such a text and `Ranges.has` looks a character up.
-/

namespace GameConfig.Text

/-- Sorted ranges of code points, both ends included. -/
abbrev Ranges := Array (Nat × Nat)

namespace Ranges

/-- The value of a digit in base 36. -/
def digit (c : Char) : Nat :=
  if '0' ≤ c && c ≤ '9' then c.toNat - 48 else if 'a' ≤ c && c ≤ 'z' then c.toNat - 87 else 0

/-- Reads the ranges of a text; `next` is the first code point behind the last range, `gap` and
    `more` the numbers read so far, and `second` tells which of them is being read. -/
def decode (acc : Ranges) (next gap more : Nat) (second : Bool) : List Char → Ranges
  | [] => acc
  | ' ' :: cs =>
    decode (acc.push (next + gap, next + gap + more)) (next + gap + more + 1) 0 0 false cs
  | ',' :: cs => decode acc next gap more true cs
  | c :: cs =>
    if second then decode acc next gap (36 * more + digit c) true cs
    else decode acc next (36 * gap + digit c) more false cs

/-- The ranges that a text describes. -/
def ofText (s : String) : Ranges := decode #[] 0 0 0 false s.toList

/-- Looks for a range with `n` between the positions `low` and `high`. -/
def search (r : Ranges) (n : Nat) : Nat → Nat → Nat → Bool
  | 0, _, _ => false
  | fuel + 1, low, high =>
    if low < high then
      let mid := (low + high) / 2
      match r[mid]? with
      | none => false
      | some (a, b) =>
        if n < a then search r n fuel low mid
        else if b < n then search r n fuel (mid + 1) high
        else true
    else false

/-- A range holds the code point. -/
def has (r : Ranges) (n : Nat) : Bool := search r n (r.size + 1) 0 r.size

end Ranges

end GameConfig.Text
