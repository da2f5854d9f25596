import GameConfig.DateTime.Basic
import GameConfig.Number.Numeral
import GameConfig.Text.Blank
import GameConfig.Text.Cut

/-
  Reading dates and times.

  The spellings are tried in order: a `Layout` of numbers and separators with a
  full time or a time without seconds, a date alone, a date with an hour, and
  at last the fixed form with an offset from universal time
  (`readWithOffset?`), which gives the time there.
-/

namespace GameConfig.DateTime

open Text Numeral

-- powers are those of the core library, whatever algebra is imported
attribute [local instance (high)] instPowNat

/-- A part of a written date or time. -/
inductive Part where
  | year
  | month
  | day
  | hour
  | minute
  | second
  /-- The digits of a fraction behind a point; all of it may be left out. -/
  | fraction
  | mark (c : Char)
  /-- Any amount of white space. -/
  | gap
deriving DecidableEq, Repr

/-- The first run of at most `width` digits, at least one, and the rest. -/
def digits? (width : Nat) (cs : List Char) : Option (List Char × List Char) :=
  let ds := (cs.take width).takeWhile isDigit
  if ds.isEmpty then none else some (ds, cs.drop ds.length)

/-- A number of at most `width` digits within bounds. -/
def number? (width low high : Nat) (cs : List Char) : Option (Nat × List Char) :=
  match digits? width cs with
  | some (ds, rest) =>
    let n := digitsValue 0 ds
    if low ≤ n && n ≤ high then some (n, rest) else none
  | none => none

/-- A year: four digits at most, or any number of them behind a sign. -/
def year? : List Char → Option (Int × List Char)
  | '-' :: cs => (digits? cs.length cs).map fun (ds, rest) => (-(digitsValue 0 ds : Int), rest)
  | '+' :: cs => (digits? cs.length cs).map fun (ds, rest) => ((digitsValue 0 ds : Int), rest)
  | cs => (digits? 4 cs).map fun (ds, rest) => ((digitsValue 0 ds : Int), rest)

/-- The nanoseconds of a fraction; digits behind the ninth are dropped. -/
def nano? (cs : List Char) : Option (Nat × List Char) :=
  match digits? 9 cs with
  | some (ds, rest) => some (digitsValue 0 ds * 10 ^ (9 - ds.length), rest.dropWhile isDigit)
  | none => none

/-- Reads one part into a time.  White space may stand before a number. -/
def readPart? (t : DateTime) (cs : List Char) : Part → Option (DateTime × List Char)
  | .year => (year? (trimStart cs)).map fun (n, rest) => ({ t with year := n }, rest)
  | .month => (number? 2 1 12 (trimStart cs)).map fun (n, rest) => ({ t with month := n }, rest)
  | .day => (number? 2 1 31 (trimStart cs)).map fun (n, rest) => ({ t with day := n }, rest)
  | .hour => (number? 2 0 23 (trimStart cs)).map fun (n, rest) => ({ t with hour := n }, rest)
  | .minute => (number? 2 0 59 (trimStart cs)).map fun (n, rest) => ({ t with minute := n }, rest)
  | .second => (number? 2 0 60 (trimStart cs)).map fun (n, rest) => ({ t with second := n }, rest)
  | .fraction =>
    match cs with
    | '.' :: more => (nano? more).map fun (n, rest) => ({ t with nano := n }, rest)
    | _ => some (t, cs)
  | .mark c =>
    match cs with
    | d :: rest => if d = c then some (t, rest) else none
    | [] => none
  | .gap => some (t, trimStart cs)

/-- Reads parts one after the other, to the end of the text. -/
def readParts? (t : DateTime) (cs : List Char) : List Part → Option DateTime
  | [] => if cs.isEmpty && t.isValid then some t else none
  | p :: ps =>
    match readPart? t cs p with
    | some (t, rest) => readParts? t rest ps
    | none => none

/-- A date with `c` between its numbers. -/
def dateParts (c : Char) : List Part := [.year, .mark c, .month, .mark c, .day]

/-- A date and a time with seconds. -/
def fullParts (c : Char) : List Part :=
  dateParts c ++ [.gap, .hour, .mark ':', .minute, .mark ':', .second, .fraction]

/-- A date and a time without seconds. -/
def minuteParts (c : Char) : List Part := dateParts c ++ [.gap, .hour, .mark ':', .minute]

/-- The spellings with a time, in order. -/
def timeSpellings : List (List Part) :=
  [fullParts '-', minuteParts '-', fullParts '/', minuteParts '/']

/-- The spellings without a time, in order. -/
def dateSpellings : List (List Part) := [dateParts '-', dateParts '/']

/-- The first spelling that fits. -/
def readAny? (spellings : List (List Part)) (cs : List Char) : Option DateTime :=
  spellings.findSome? fun ps => readParts? blank cs ps

/-- A date and, behind a blank, the one or two digits of an hour. -/
def readHour? (cs : List Char) : Option DateTime :=
  match cut ' ' cs with
  | some (date, hour) =>
    if !hour.isEmpty && hour.length ≤ 2 && hour.all isDigit then
      readAny? timeSpellings (date ++ ' ' :: hour ++ [':', '0', '0'])
    else none
  | none => none

/-! ## Times with an offset -/

/-- Exactly `width` digits, within bounds. -/
def fixed? (width low high : Nat) (cs : List Char) : Option (Nat × List Char) :=
  let ds := cs.take width
  if ds.length = width && ds.all isDigit then
    let n := digitsValue 0 ds
    if low ≤ n && n ≤ high then some (n, cs.drop width) else none
  else none

/-- A given character. -/
def mark? (p : Char → Bool) : List Char → Option (List Char)
  | c :: cs => if p c then some cs else none
  | [] => none

/-- An offset from universal time in minutes, and the rest. -/
def offset? : List Char → Option (Int × List Char)
  | [] => none
  | c :: cs =>
    if c = 'Z' || c = 'z' then some (0, cs)
    else if c = '+' || c = '-' || c = '−' then do
      let (hours, cs) ← fixed? 2 0 23 cs
      let cs ← mark? (· == ':') cs
      let (minutes, cs) ← fixed? 2 0 59 cs
      let total : Int := hours * 60 + minutes
      some (if c = '+' then total else -total, cs)
    else none

/-- A date and a time of fixed widths with an offset; the time is the universal one. -/
def readWithOffset? (cs : List Char) : Option DateTime := do
  let (year, cs) ← fixed? 4 0 9999 cs
  let cs ← mark? (· == '-') cs
  let (month, cs) ← fixed? 2 1 12 cs
  let cs ← mark? (· == '-') cs
  let (day, cs) ← fixed? 2 1 31 cs
  let cs ← mark? (fun c => c == 'T' || c == 't' || c == ' ') cs
  let (hour, cs) ← fixed? 2 0 23 cs
  let cs ← mark? (· == ':') cs
  let (minute, cs) ← fixed? 2 0 59 cs
  let cs ← mark? (· == ':') cs
  let (second, cs) ← fixed? 2 0 60 cs
  let (nano, cs) ← match cs with
    | '.' :: more => nano? more
    | _ => some (0, cs)
  let (offset, cs) ← offset? cs
  let t : DateTime := ⟨year, month, day, hour, minute, second, nano⟩
  if cs.isEmpty && t.isValid then some (t.shift (-offset)) else none

/-- The date and time of trimmed text. -/
def readTrimmed? (cs : List Char) : Option DateTime :=
  match readAny? timeSpellings cs with
  | some t => some t
  | none =>
    match readAny? dateSpellings cs with
    | some t => some t
    | none =>
      match readHour? cs with
      | some t => some t
      | none => readWithOffset? cs

/-- Reads a date and time in any of its spellings. -/
def read? (s : String) : Option DateTime := readTrimmed? (trim s.toList)

end GameConfig.DateTime
