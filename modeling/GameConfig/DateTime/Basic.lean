import GameConfig.Number.Printer

/-
  Dates with a time of day, without a time zone.

  Years follow the Gregorian rule in both directions, with a year zero.  A
  second may be the sixtieth of its minute (a leap second); fractions are
  counted in nanoseconds.

  * `DateTime.isValid` holds of the dates and times that exist;
  * `DateTime.shift` moves by minutes, over at most one day's end;
  * `DateTime.chars` is the written form.
-/

namespace GameConfig

structure DateTime where
  year : Int
  month : Nat
  day : Nat
  hour : Nat
  minute : Nat
  second : Nat
  nano : Nat
deriving DecidableEq, Repr, Inhabited

namespace DateTime

/-- The first instant of the year zero, with nothing said of the time. -/
def blank : DateTime := ⟨0, 1, 1, 0, 0, 0, 0⟩

def isLeapYear (y : Int) : Bool := y % 4 == 0 && (y % 100 != 0 || y % 400 == 0)

def daysIn (y : Int) (month : Nat) : Nat :=
  if month = 2 then (if isLeapYear y then 29 else 28)
  else if month = 4 || month = 6 || month = 9 || month = 11 then 30
  else 31

def minYear : Int := -262143

def maxYear : Int := 262142

/-- The date exists and lies in the range of years. -/
def isDate (y : Int) (month day : Nat) : Bool :=
  minYear ≤ y && y ≤ maxYear && 1 ≤ month && month ≤ 12 && 1 ≤ day && day ≤ daysIn y month

/-- The date and the time exist. -/
def isValid (t : DateTime) : Bool :=
  isDate t.year t.month t.day && t.hour < 24 && t.minute < 60 && t.second ≤ 60 &&
    t.nano < 1000000000

/-- The day after. -/
def nextDay (t : DateTime) : DateTime :=
  if t.day < daysIn t.year t.month then { t with day := t.day + 1 }
  else if t.month < 12 then { t with month := t.month + 1, day := 1 }
  else { t with year := t.year + 1, month := 1, day := 1 }

/-- The day before. -/
def previousDay (t : DateTime) : DateTime :=
  if 1 < t.day then { t with day := t.day - 1 }
  else if 1 < t.month then
    { t with month := t.month - 1, day := daysIn t.year (t.month - 1) }
  else { t with year := t.year - 1, month := 12, day := 31 }

/-- The time `minutes` later, or earlier if negative; less than a day either way. -/
def shift (t : DateTime) (minutes : Int) : DateTime :=
  let total : Int := t.hour * 60 + t.minute + minutes
  let inDay := (total % 1440).toNat
  let t' := if total < 0 then t.previousDay else if 1440 ≤ total then t.nextDay else t
  { t' with hour := inDay / 60, minute := inDay % 60 }

/-! ## The written form -/

/-- A number with at least `width` digits. -/
def padded (width n : Nat) : List Char :=
  let ds := digitsOf n
  List.replicate (width - ds.length) '0' ++ ds

/-- Four digits; a sign in front of the years that need more or come before zero. -/
def yearChars (y : Int) : List Char :=
  if y < 0 then '-' :: padded 4 y.natAbs
  else if 9999 < y then '+' :: padded 4 y.natAbs
  else padded 4 y.natAbs

/-- Nothing for a whole second, else three, six or nine digits. -/
def fractionChars (nano : Nat) : List Char :=
  if nano = 0 then []
  else if nano % 1000000 = 0 then '.' :: padded 3 (nano / 1000000)
  else if nano % 1000 = 0 then '.' :: padded 6 (nano / 1000)
  else '.' :: padded 9 nano

def dateChars (t : DateTime) : List Char :=
  yearChars t.year ++ '-' :: padded 2 t.month ++ '-' :: padded 2 t.day

def timeChars (t : DateTime) : List Char :=
  padded 2 t.hour ++ ':' :: padded 2 t.minute ++ ':' :: padded 2 t.second ++ fractionChars t.nano

def chars (t : DateTime) : List Char := t.dateChars ++ ' ' :: t.timeChars

def toText (t : DateTime) : String := String.ofList t.chars

end DateTime

end GameConfig
