import GameConfig.Number.Numeral
import GameConfig.Number.Printer
import GameConfig.Text.Blank
import GameConfig.Text.Cut

/-
  Intervals of numbers.

  An interval is written `[a,b]`, with a round bracket on a side whose end does
  not belong to it and nothing in the place of an end that it does not have; or
  as `a,b`; or as a single value.  `Interval.read?` reads these forms and
  `Interval.text` writes the first of them.
-/

namespace GameConfig

/-- What intervals need of their ends: order and text. -/
class Endpoint (α : Type) where
  le : α → α → Bool
  lt : α → α → Bool
  text : α → String

instance : Endpoint Int where
  le a b := decide (a ≤ b)
  lt a b := decide (a < b)
  text := integerText

instance {l : Layout} : Endpoint (Binary l) where
  le := Binary.le
  lt := Binary.lt
  text := Binary.display

/-- An interval; an end that is none sets no limit. -/
structure Interval (α : Type) where
  min : Option α
  /-- The least value belongs to the interval. -/
  minIn : Bool
  max : Option α
  /-- The greatest value belongs to the interval. -/
  maxIn : Bool
deriving DecidableEq, Repr

namespace Interval

variable {α β : Type}

/-- The interval of one value. -/
def single (a : α) : Interval α := ⟨some a, true, some a, true⟩

def map (f : α → β) (i : Interval α) : Interval β := ⟨i.min.map f, i.minIn, i.max.map f, i.maxIn⟩

variable [Endpoint α]

/-- The value is not below the least one. -/
def above (i : Interval α) (a : α) : Bool :=
  match i.min with
  | none => true
  | some m => if i.minIn then Endpoint.le m a else Endpoint.lt m a

/-- The value is not beyond the greatest one. -/
def below (i : Interval α) (a : α) : Bool :=
  match i.max with
  | none => true
  | some m => if i.maxIn then Endpoint.le a m else Endpoint.lt a m

def contains (i : Interval α) (a : α) : Bool := i.above a && i.below a

def sideText : Option α → String
  | some a => Endpoint.text a
  | none => ""

/-- The interval in brackets. -/
def text (i : Interval α) : String :=
  (if i.minIn then "[" else "(") ++ sideText i.min ++ "," ++ sideText i.max ++
    (if i.maxIn then "]" else ")")

/-! ## Reading -/

/-- An end: nothing but blanks stands for none. -/
def side? (read : List Char → Option α) (cs : List Char) : Option (Option α) :=
  match Text.trim cs with
  | [] => some none
  | trimmed => (read trimmed).map some

/-- Some end is there, and they are in order. -/
def isProper (i : Interval α) : Bool :=
  match i.min, i.max with
  | none, none => false
  | some a, some b => !Endpoint.lt b a
  | _, _ => true

/-- The two ends around the first comma. -/
def ends? (read : List Char → Option α) (minIn maxIn : Bool) (cs : List Char) :
    Option (Interval α) :=
  match Text.cut ',' cs with
  | none => none
  | some (low, high) =>
    match side? read low, side? read high with
    | some a, some b =>
      let i : Interval α := ⟨a, minIn, b, maxIn⟩
      if i.isProper then some i else none
    | _, _ => none

/-- What stands between brackets, and whether each of them is a square one. -/
def brackets? : List Char → Option (Bool × Bool × List Char)
  | [] => none
  | first :: rest =>
    match rest.getLast? with
    | none => none
    | some last =>
      if (first == '[' || first == '(') && (last == ']' || last == ')') then
        some (first == '[', last == ']', rest.dropLast)
      else none

/-- Reads an interval; `read` reads its ends. -/
def read? (read : List Char → Option α) (s : String) : Option (Interval α) :=
  let cs := Text.trim s.toList
  match brackets? cs with
  | some (minIn, maxIn, inner) => ends? read minIn maxIn inner
  | none => if cs.contains ',' then ends? read true true cs else (read cs).map single

end Interval

/-- An interval of doubles. -/
def doubles? (s : String) : Option (Interval Double) := Interval.read? Numeral.readDouble? s

/-- An interval of integers of 64 bits. -/
def integers? (s : String) : Option (Interval Int) := Interval.read? Numeral.readInt64? s

end GameConfig
