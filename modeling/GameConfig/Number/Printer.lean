import GameConfig.Number.Shortest

/-
  How numbers are written.

  * `Binary.display` writes the shortest decimal in full, without an exponent
    and without a point after a whole number;
  * `Double.jsonText` writes it as JSON: in full from `0.00001` up to sixteen
    digits before the point, always with a point, else with one digit before
    the point and a signed exponent.
-/

namespace GameConfig

/-- The digits of a natural number, in base ten. -/
def digitsOf (n : Nat) : List Char := Nat.toDigits 10 n

/-- An integer in base ten, with a sign if negative. -/
def integerText (i : Int) : String :=
  if i < 0 then String.ofList ('-' :: digitsOf i.natAbs) else String.ofList (digitsOf i.natAbs)

namespace Decimal

/-- All digits in full; `whole` follows a number without digits after the point. -/
def positional (whole : List Char) (d : Decimal) : List Char :=
  let ds := digitsOf d.digits
  if 0 ≤ d.exponent then ds ++ List.replicate d.exponent.toNat '0' ++ whole
  else
    let places := (-d.exponent).toNat
    if places < ds.length then
      ds.take (ds.length - places) ++ '.' :: ds.drop (ds.length - places)
    else '0' :: '.' :: List.replicate (places - ds.length) '0' ++ ds

/-- One digit, the others after a point, and a signed exponent. -/
def scientific (d : Decimal) : List Char :=
  let ds := digitsOf d.digits
  let e : Int := d.exponent + (ds.length - 1 : Nat)
  let tail := match ds.drop 1 with
    | [] => []
    | more => '.' :: more
  ds.take 1 ++ tail ++ 'e' :: (if e < 0 then '-' else '+') :: digitsOf e.natAbs

/-- How many digits stand before the point, when written in full; zero or less for a number
    below one tenth. -/
def point (d : Decimal) : Int := d.exponent + (digitsOf d.digits).length

end Decimal

namespace Binary

variable {l : Layout}

/-- A sign in front, if negative. -/
def signed (negative : Bool) (cs : List Char) : List Char := if negative then '-' :: cs else cs

/-- The shortest decimal in full. -/
def displayChars : Binary l → List Char
  | nan => ['N', 'a', 'N']
  | ranked negative rank =>
    signed negative <|
      if rank.val < l.top then (Decimal.shortest l .up rank.val).positional []
      else ['i', 'n', 'f']

def display (x : Binary l) : String := String.ofList x.displayChars

end Binary

/-- The JSON text of a finite double; `null` for the others. -/
def Double.jsonChars : Double → List Char
  | .nan => ['n', 'u', 'l', 'l']
  | .ranked negative rank =>
    if rank.val < Layout.double.top then
      let d := Decimal.shortest .double .even rank.val
      Binary.signed negative <|
        if d.digits = 0 || (-5 < d.point && d.point ≤ 16) then d.positional ['.', '0']
        else d.scientific
    else ['n', 'u', 'l', 'l']

def Double.jsonText (x : Double) : String := String.ofList x.jsonChars

end GameConfig
