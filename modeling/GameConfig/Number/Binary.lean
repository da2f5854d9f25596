/-
  Binary floating-point numbers, exactly.

  A number of a `Layout` is not a number, or a sign and a *rank*: its place
  among the magnitudes of the layout, counted from zero up to infinity
  (`Layout.top`).  Ranks are ordered as the magnitudes are, so comparison is
  comparison of signed ranks (`Binary.key`); the two zeros have the same key.

  * `Layout.significand` and `Layout.exponent` give the magnitude of a rank:
    significand times two to the exponent;
  * `Binary.ofRatio` is the nearest number to a fraction, a half going to the
    even neighbour; whatever lies beyond the largest finite magnitude is
    infinite;
  * `convert`, `mul`, `div`, `floor`, `ceil` and `plus` take the exact result and
    round it once.
-/

namespace GameConfig

-- powers are those of the core library, whatever algebra is imported
attribute [local instance (high)] instPowNat

/-- A binary layout: how many bits hold the fraction and how many the exponent. -/
structure Layout where
  fractionBits : Nat
  exponentBits : Nat
deriving DecidableEq, Repr

namespace Layout

/-- Numbers in 32 bits. -/
def single : Layout := ⟨23, 8⟩

/-- Numbers in 64 bits. -/
def double : Layout := ⟨52, 11⟩

/-- The rank of infinity. -/
def top (l : Layout) : Nat := (2 ^ l.exponentBits - 1) * 2 ^ l.fractionBits

/-- The power of two that the least positive magnitude is. -/
def leastExponent (l : Layout) : Int := 2 - 2 ^ (l.exponentBits - 1) - l.fractionBits

/-- The integer significand of the magnitude with this rank. -/
def significand (l : Layout) (rank : Nat) : Nat :=
  if rank < 2 ^ l.fractionBits then rank
  else 2 ^ l.fractionBits + rank % 2 ^ l.fractionBits

/-- The power of two that goes with `significand`. -/
def exponent (l : Layout) (rank : Nat) : Int :=
  if rank < 2 ^ l.fractionBits then l.leastExponent
  else l.leastExponent + (rank / 2 ^ l.fractionBits - 1 : Nat)

end Layout

/-- A fraction of natural numbers. -/
structure Ratio where
  num : Nat
  den : Nat
deriving DecidableEq, Repr

namespace Ratio

/-- A natural number times a power of a base. -/
def scaled (n base : Nat) (e : Int) : Ratio :=
  if 0 ≤ e then ⟨n * base ^ e.toNat, 1⟩ else ⟨n, base ^ (-e).toNat⟩

/-- The fraction divided by a power of a base. -/
def unscale (r : Ratio) (base : Nat) (e : Int) : Ratio :=
  if 0 ≤ e then ⟨r.num, r.den * base ^ e.toNat⟩ else ⟨r.num * base ^ (-e).toNat, r.den⟩

/-- The greatest power of two that is at most the (positive) fraction. -/
def floorLog2 (r : Ratio) : Int :=
  let guess : Int := (r.num.log2 : Int) - r.den.log2
  let s := unscale r 2 guess
  if s.num < s.den then guess - 1 else guess

/-- The nearest natural number; a half goes to the even one. -/
def roundEven (r : Ratio) : Nat :=
  let q := r.num / r.den
  let twice := 2 * (r.num % r.den)
  if twice < r.den then q else if r.den < twice then q + 1 else q + q % 2

/-- The natural part. -/
def floor (r : Ratio) : Nat := r.num / r.den

/-- The least natural number that is at least the fraction. -/
def ceil (r : Ratio) : Nat := (r.num + (r.den - 1)) / r.den

end Ratio

/-- A number of a binary layout. -/
inductive Binary (l : Layout) where
  | nan
  | ranked (negative : Bool) (rank : Fin (l.top + 1))
deriving DecidableEq, Repr

/-- A number in 32 bits. -/
abbrev Single := Binary .single

/-- A number in 64 bits. -/
abbrev Double := Binary .double

namespace Binary

variable {l : Layout}

/-- The number with this sign and rank; a rank beyond infinity is infinity. -/
def ofRank (negative : Bool) (rank : Nat) : Binary l :=
  .ranked negative ⟨min rank l.top, Nat.lt_succ_of_le (Nat.min_le_right _ _)⟩

def zero : Binary l := ofRank false 0

def infinity (negative : Bool) : Binary l := ofRank negative l.top

/-- The signed rank; none for what is not a number. -/
def key : Binary l → Option Int
  | nan => none
  | ranked negative rank => some (if negative then -(rank.val : Int) else rank.val)

/-- At most, by value; false if one side is not a number. -/
def le (x y : Binary l) : Bool :=
  match x.key, y.key with
  | some a, some b => a ≤ b
  | _, _ => false

/-- Less than, by value; false if one side is not a number. -/
def lt (x y : Binary l) : Bool :=
  match x.key, y.key with
  | some a, some b => a < b
  | _, _ => false

/-- Equal by value; false if one side is not a number. -/
def eqv (x y : Binary l) : Bool :=
  match x.key, y.key with
  | some a, some b => a == b
  | _, _ => false

/-- Equal by value, where all that is not a number is one value. -/
def same (x y : Binary l) : Bool := x.key == y.key

def isNegative : Binary l → Bool
  | nan => false
  | ranked negative _ => negative

def isNaN : Binary l → Bool
  | nan => true
  | ranked _ _ => false

def isFinite : Binary l → Bool
  | nan => false
  | ranked _ rank => rank.val < l.top

def isInfinite (x : Binary l) : Bool := !x.isNaN && !x.isFinite

def negate : Binary l → Binary l
  | nan => nan
  | ranked negative rank => ranked (!negative) rank

/-- The magnitude without its sign. -/
def abs : Binary l → Binary l
  | nan => nan
  | ranked _ rank => ranked false rank

/-- The exact magnitude of a finite rank. -/
def ratioOfRank (l : Layout) (rank : Nat) : Ratio :=
  Ratio.scaled (l.significand rank) 2 (l.exponent rank)

/-- The exact magnitude; zero for what is not finite. -/
def magnitude : Binary l → Ratio
  | nan => ⟨0, 1⟩
  | ranked _ rank => if rank.val < l.top then ratioOfRank l rank else ⟨0, 1⟩

/-- The rank nearest to a fraction, before infinity is cut off.  The exponent is the
    one that leaves `fractionBits + 1` bits before the point, but never below the least;
    a significand that rounds up to the next power of two carries into the exponent. -/
def nearestRank (l : Layout) (r : Ratio) : Nat :=
  if r.num = 0 then 0
  else
    let e := max l.leastExponent (r.floorLog2 - l.fractionBits)
    (e - l.leastExponent).toNat * 2 ^ l.fractionBits + (r.unscale 2 e).roundEven

/-- The number nearest to a signed fraction. -/
def ofRatio (negative : Bool) (r : Ratio) : Binary l := ofRank negative (nearestRank l r)

/-- The number nearest to an integer. -/
def ofInt (i : Int) : Binary l := ofRatio (decide (i < 0)) ⟨i.natAbs, 1⟩

/-- The nearest number of another layout. -/
def convert (l' : Layout) : Binary l → Binary l'
  | nan => nan
  | ranked negative rank =>
    if rank.val < l.top then ofRatio negative (ratioOfRank l rank) else infinity negative

/-- The product of two finite numbers. -/
def mul (x y : Binary l) : Binary l :=
  let a := x.magnitude
  let b := y.magnitude
  ofRatio (x.isNegative != y.isNegative) ⟨a.num * b.num, a.den * b.den⟩

/-- The quotient of a finite number by a finite one that is not zero. -/
def div (x y : Binary l) : Binary l :=
  let a := x.magnitude
  let b := y.magnitude
  ofRatio (x.isNegative != y.isNegative) ⟨a.num * b.den, a.den * b.num⟩

/-- The greatest integer that is at most the number. -/
def floor (x : Binary l) : Binary l :=
  if x.isFinite then
    let m := x.magnitude
    ofInt (if x.isNegative then -(m.ceil : Int) else m.floor)
  else x

/-- The least integer that is at least the number. -/
def ceil (x : Binary l) : Binary l :=
  if x.isFinite then
    let m := x.magnitude
    ofInt (if x.isNegative then -(m.floor : Int) else m.ceil)
  else x

/-- The sum of an integral number and an integer, rounded once. -/
def plus (x : Binary l) (i : Int) : Binary l :=
  if x.isFinite then
    let m : Int := x.magnitude.floor
    ofInt ((if x.isNegative then -m else m) + i)
  else x

/-- The natural part, at most `limit`; zero for what is negative or not a number. -/
def toNat (limit : Nat) (x : Binary l) : Nat :=
  if x.isNaN || x.isNegative then 0
  else if x.isFinite then min x.magnitude.floor limit
  else limit

end Binary

/-- The nearest double to a single: the same value. -/
def Binary.widen (x : Single) : Double := x.convert .double

/-- The nearest single to a double. -/
def Binary.narrow (x : Double) : Single := x.convert .single

/-- The largest finite single. -/
def Single.greatest : Single := .ofRank false (Layout.single.top - 1)

end GameConfig
