import GameConfig.Number.Binary

/-
  The shortest decimal that reads back as a given binary number.

  The decimals that round to a number fill an interval around it, whose ends
  belong to it iff the significand is even.  `Decimal.shortest` looks for the
  coarsest decimal grid with a point in that interval and takes the point
  nearest to the number.  Of two equally near points one is chosen by a
  `Tie`.
-/

namespace GameConfig

-- powers are those of the core library, whatever algebra is imported
attribute [local instance (high)] instPowNat

/-- A decimal: digits times a power of ten. -/
structure Decimal where
  digits : Nat
  exponent : Int
deriving DecidableEq, Repr

/-- Which of two equally near decimals is taken. -/
inductive Tie where
  | even
  | up
deriving DecidableEq, Repr

namespace Decimal

/-- The decimals that round to one number: a value between two ends, in units of a
    common power of two. -/
structure Interval where
  low : Nat
  value : Nat
  high : Nat
  exponent : Int
  closed : Bool
deriving DecidableEq, Repr

/-- The interval of a positive finite rank.  The gap below a power of two is half the
    gap above it, except at the least exponent. -/
def Interval.ofRank (l : Layout) (rank : Nat) : Interval :=
  let m := l.significand rank
  let narrow := m == 2 ^ l.fractionBits && l.leastExponent < l.exponent rank
  { low := if narrow then 4 * m - 1 else 4 * m - 2
    value := 4 * m
    high := 4 * m + 2
    exponent := l.exponent rank - 2
    closed := m % 2 == 0 }

/-- The point of the grid of multiples of ten to the `k` that lies in the interval and is
    nearest to its value, if there is one that is not zero. -/
def Interval.hit (i : Interval) (tie : Tie) (k : Int) : Option Nat :=
  -- In units of `1 / den` of the interval's own unit, the grid's step is `step`.
  let two := Ratio.scaled 1 2 i.exponent
  let ten := Ratio.scaled 1 10 k
  let step := ten.num * two.den
  let unit := two.num * ten.den
  let value := i.value * unit
  let low := i.low * unit
  let high := i.high * unit
  let inside (c : Nat) : Bool :=
    let p := c * step
    0 < c && (if i.closed then low ≤ p && p ≤ high else low < p && p < high)
  let c := value / step
  let below := value % step
  match inside c, inside (c + 1) with
  | false, false => none
  | true, false => some c
  | false, true => some (c + 1)
  | true, true =>
    if 2 * below < step then some c
    else if step < 2 * below then some (c + 1)
    else match tie with
      | .even => some (if c % 2 == 0 then c else c + 1)
      | .up => some (c + 1)

/-- The first grid with a hit, from the coarse one with step ten to the `k` downward. -/
def Interval.search (i : Interval) (tie : Tie) : Nat → Int → Decimal
  | 0, k => ⟨0, k⟩
  | fuel + 1, k =>
    match i.hit tie k with
    | some c => ⟨c, k⟩
    | none => i.search tie fuel (k - 1)

/-- The shortest decimal that reads back as the magnitude of this rank.  The search starts
    at a power of ten above the number, and seventeen digits always suffice. -/
def shortest (l : Layout) (tie : Tie) (rank : Nat) : Decimal :=
  if rank = 0 then ⟨0, 0⟩
  else
    let i := Interval.ofRank l rank
    let bits : Int := i.exponent + (i.high.log2 + 1 : Nat)
    i.search tie 24 (bits * 30103 / 100000 + 1)

end Decimal

end GameConfig
