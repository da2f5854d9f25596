import GameConfig.Number.Binary

/-
  Reading numbers from text.

  * `readInt?` reads an integer: an optional sign and decimal digits;
  * `readInt64?` keeps those of 64 bits;
  * `readDouble?` reads a double: an optional sign, digits with an optional
    point on either side of which there may be none, and an optional exponent;
    or the words for infinity and for what is not a number, in any case.  The
    result is the double nearest to the decimal as written.
-/

namespace GameConfig.Numeral

/-- The value of a decimal digit. -/
def digit? (c : Char) : Option Nat :=
  if '0' ≤ c && c ≤ '9' then some (c.toNat - '0'.toNat) else none

def isDigit (c : Char) : Bool := '0' ≤ c && c ≤ '9'

/-- The number that a run of digits spells, continuing from `acc`. -/
def digitsValue (acc : Nat) (cs : List Char) : Nat :=
  cs.foldl (fun n c => 10 * n + (c.toNat - '0'.toNat)) acc

/-- A sign in front, read off: negative or not, and the rest. -/
def readSign : List Char → Bool × List Char
  | '-' :: cs => (true, cs)
  | '+' :: cs => (false, cs)
  | cs => (false, cs)

/-- An optional sign and at least one digit. -/
def readInt? (cs : List Char) : Option Int :=
  let (negative, ds) := readSign cs
  if ds.isEmpty || !ds.all isDigit then none
  else
    let n : Int := digitsValue 0 ds
    some (if negative then -n else n)

/-- The integers of 64 bits. -/
def minInt64 : Int := -9223372036854775808

def maxInt64 : Int := 9223372036854775807

/-- The greatest natural number of 64 bits. -/
def maxNat64 : Nat := 18446744073709551615

def fitsInt64 (i : Int) : Bool := minInt64 ≤ i && i ≤ maxInt64

/-- An integer of 64 bits. -/
def readInt64? (cs : List Char) : Option Int :=
  match readInt? cs with
  | some i => if fitsInt64 i then some i else none
  | none => none

/-- The double nearest to digits times a power of ten.  Powers so far out that the result is
    infinite or zero are not computed; bits are taken for places at rates that are not too high
    (ten bits for three places) and not too low (thirteen for four). -/
def ofDecimal (negative : Bool) (digits : Nat) (exponent : Int) : Double :=
  if digits = 0 || digits.log2 * 4 / 13 + exponent < -400 then .ofRank negative 0
  else if 400 < digits.log2 * 3 / 10 + exponent then .infinity negative
  else .ofRatio negative (Ratio.scaled digits 10 exponent)

/-- An exponent: `e` or `E`, an optional sign and at least one digit, to the end. -/
def readExponent? : List Char → Option Int
  | [] => some 0
  | c :: cs => if c == 'e' || c == 'E' then readInt? cs else none

/-- Digits with an optional point and an optional exponent. -/
def readDecimal? (negative : Bool) (cs : List Char) : Option Double :=
  let whole := cs.takeWhile isDigit
  let rest := cs.dropWhile isDigit
  let (fraction, rest) := match rest with
    | '.' :: more => (more.takeWhile isDigit, more.dropWhile isDigit)
    | _ => ([], rest)
  if whole.isEmpty && fraction.isEmpty then none
  else
    match readExponent? rest with
    | some e =>
      some (ofDecimal negative (digitsValue 0 (whole ++ fraction)) (e - fraction.length))
    | none => none

/-- The lower-case form of an ASCII letter. -/
def lowerAscii (c : Char) : Char :=
  if 'A' ≤ c && c ≤ 'Z' then Char.ofNat (c.toNat + 32) else c

/-- A double in any of its spellings. -/
def readDouble? (cs : List Char) : Option Double :=
  let (negative, body) := readSign cs
  let word := body.map lowerAscii
  if word == ['i', 'n', 'f'] || word == ['i', 'n', 'f', 'i', 'n', 'i', 't', 'y'] then
    some (.infinity negative)
  else if word == ['n', 'a', 'n'] then some .nan
  else readDecimal? negative body

end GameConfig.Numeral
