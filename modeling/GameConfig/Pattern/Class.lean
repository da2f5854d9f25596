import GameConfig.Number.Numeral
import GameConfig.Pattern.Regex
import GameConfig.Text.Cut

/-
  The characters that a pattern names: escapes and bracketed classes.

  Flags say how the text of a pattern is read.  An escape stands for an `Atom`:
  a character, a set or a question about a place.  A class unites its items and
  may take the intersection, difference or symmetric difference of such unions,
  from left to right.  All readers give back the rest of the text; none means
  that the text is no pattern.
-/

namespace GameConfig.Pattern

open Text

/-- How a pattern is read. -/
structure Flags where
  ignoreCase : Bool
  multiLine : Bool
  dotAll : Bool
  unicode : Bool
  /-- Lines end in a carriage return, a line feed or both. -/
  returns : Bool
  /-- Blanks and comments between the parts of a pattern are skipped. -/
  spaced : Bool
deriving DecidableEq, Repr

def Flags.standard : Flags := ⟨false, false, false, true, false, false⟩

namespace Flags

/-- The greatest code of a complement: that of a character, or of a byte. -/
def top (f : Flags) : Nat := if f.unicode then CharSet.greatest else 255

/-- The set, closed under change of case if case is ignored. -/
def fold (f : Flags) (s : CharSet) : CharSet :=
  if f.ignoreCase then (if f.unicode then s.foldCase else s.foldAscii) else s.normal

/-- A set of bytes may hold ASCII only. -/
def allow (f : Flags) (s : CharSet) : Option CharSet :=
  if f.unicode || s.all fun r => r.2 < 128 then some s else none

/-- The set or its complement. -/
def sign (f : Flags) (negated : Bool) (s : CharSet) : Option CharSet :=
  f.allow (if negated then s.complement f.top else s)

end Flags

/-- Drops blanks, and comments from `#` to the end of the line. -/
def dropSpace (comment : Bool) : List Char → List Char
  | [] => []
  | c :: cs =>
    if comment then dropSpace (c != '\n') cs
    else if isBlank c then dropSpace false cs
    else if c == '#' then dropSpace true cs
    else c :: cs

/-- What follows, without the blanks that the flags allow. -/
def Flags.skip (f : Flags) (cs : List Char) : List Char :=
  if f.spaced then dropSpace false cs else cs

/-! ## Escapes -/

/-- What a single character or an escape stands for. -/
inductive Atom where
  /-- A character; `byte` if it was written with two hexadecimal digits. -/
  | char (c : Char) (byte : Bool)
  | set (s : CharSet)
  | look (kind : Look)

def hexValue? (c : Char) : Option Nat :=
  if '0' ≤ c && c ≤ '9' then some (c.toNat - 48)
  else if 'a' ≤ c && c ≤ 'f' then some (c.toNat - 87)
  else if 'A' ≤ c && c ≤ 'F' then some (c.toNat - 55)
  else none

/-- The character with this code. -/
def charOf? (n : Nat) : Option Char := if n.isValidChar then some (Char.ofNat n) else none

/-- A given number of hexadecimal digits. -/
def hexFixed? (f : Flags) : Nat → Nat → List Char → Option (Char × List Char)
  | 0, value, cs => (charOf? value).map fun c => (c, cs)
  | more + 1, value, c :: cs =>
    (hexValue? c).bind fun d => hexFixed? f more (16 * value + d) (f.skip cs)
  | _, _, [] => none

/-- The characters up to a closing brace, without the blanks that the flags allow. -/
def braced? (f : Flags) : Nat → List Char → Option (List Char × List Char)
  | 0, _ => none
  | fuel + 1, cs =>
    match f.skip cs with
    | [] => none
    | '}' :: rest => some ([], rest)
    | c :: rest => (braced? f fuel rest).map fun (inner, rest) => (c :: inner, rest)

/-- The value of hexadecimal digits. -/
def hexDigits? : Nat → List Char → Option Nat
  | value, [] => some value
  | value, c :: cs => (hexValue? c).bind fun d => hexDigits? (16 * value + d) cs

/-- A character by its code: in braces, or with a given number of digits. -/
def hexEscape? (f : Flags) (width : Nat) (cs : List Char) : Option (Atom × List Char) :=
  match f.skip cs with
  | '{' :: rest =>
    match braced? f (rest.length + 1) rest with
    | none | some ([], _) => none
    | some (digits, rest) =>
      ((hexDigits? 0 digits).bind charOf?).map fun c => (.char c false, f.skip rest)
  | cs => (hexFixed? f width 0 cs).map fun (c, rest) => (.char c (width == 2), rest)

/-- The name and the value around the first `!=`, else around the first colon or equals sign. -/
def cutProperty? (name : List Char) : Option (List Char × List Char) :=
  let rec unequal : List Char → Option (List Char × List Char)
    | '!' :: '=' :: rest => some ([], rest)
    | c :: rest => (unequal rest).map fun (a, b) => (c :: a, b)
    | [] => none
  match unequal name with
  | some parts => some parts
  | none =>
    match cut ':' name with
    | some parts => some parts
    | none => cut '=' name

/-- The characters with a property, by one letter or by a name in braces. -/
def propertyEscape? (f : Flags) (negated : Bool) (cs : List Char) : Option (Atom × List Char) := do
  let (set, rest) ← match f.skip cs with
    | [] | '\\' :: _ => none
    | '{' :: rest => do
      let (name, rest) ← braced? f (rest.length + 1) rest
      let set ← match cutProperty? name with
        | some (property, value) => CharSet.byValue? property value
        | none => CharSet.byName? name
      some (set, rest)
    | c :: rest => do some (← CharSet.byName? [c], f.skip rest)
  if f.unicode then some (.set (← f.sign negated (f.fold set)), rest) else none

/-- A place at a word, by name. -/
def wordLook? (unicode : Bool) (name : List Char) : Option Look :=
  match String.ofList name with
  | "start" => some (.wordStart unicode)
  | "end" => some (.wordEnd unicode)
  | "start-half" => some (.wordStartHalf unicode)
  | "end-half" => some (.wordEndHalf unicode)
  | _ => none

/-- A letter or a dash. -/
def isLookChar (c : Char) : Bool := ('A' ≤ c && c ≤ 'Z') || ('a' ≤ c && c ≤ 'z') || c == '-'

/-- A word boundary, or the place that is named in braces behind it.  Braces that do not begin
    with a letter are left for a repetition. -/
def boundary? (f : Flags) (cs : List Char) : Option (Atom × List Char) :=
  match cs with
  | '{' :: rest =>
    match f.skip rest with
    | [] => none
    | c :: _ =>
      if isLookChar c then
        (braced? f (rest.length + 1) rest).bind fun (name, rest) =>
          (wordLook? f.unicode name).map fun k => (.look k, rest)
      else some (.look (.wordBoundary f.unicode), cs)
  | _ => some (.look (.wordBoundary f.unicode), cs)

/-- Characters that stand for themselves behind a backslash: ASCII without letters, digits and
    angle brackets. -/
def isPlain (c : Char) : Bool :=
  c.toNat < 128 && !('0' ≤ c && c ≤ '9') && !('A' ≤ c && c ≤ 'Z') && !('a' ≤ c && c ≤ 'z') &&
    c != '<' && c != '>'

/-- What stands behind a backslash. -/
def escape? (f : Flags) : List Char → Option (Atom × List Char)
  | [] => none
  | c :: cs =>
    let class? (s : CharSet) (negated : Bool) : Option (Atom × List Char) :=
      (f.sign negated s).map fun s => (.set s, cs)
    let look (k : Look) : Option (Atom × List Char) := some (.look k, cs)
    let char (n : Nat) : Option (Atom × List Char) := some (.char (Char.ofNat n) false, cs)
    match c with
    | 'x' => hexEscape? f 2 cs
    | 'u' => hexEscape? f 4 cs
    | 'U' => hexEscape? f 8 cs
    | 'p' => propertyEscape? f false cs
    | 'P' => propertyEscape? f true cs
    | 'd' => class? (CharSet.digits f.unicode) false
    | 'D' => class? (CharSet.digits f.unicode) true
    | 's' => class? (CharSet.spaces f.unicode) false
    | 'S' => class? (CharSet.spaces f.unicode) true
    | 'w' => class? (CharSet.words f.unicode) false
    | 'W' => class? (CharSet.words f.unicode) true
    | 'a' => char 7
    | 't' => char 9
    | 'n' => char 10
    | 'v' => char 11
    | 'f' => char 12
    | 'r' => char 13
    | 'A' => look .textStart
    | 'z' => look .textEnd
    | 'b' => boundary? f cs
    | 'B' => look (.noWordBoundary f.unicode)
    | '<' => look (.wordStart f.unicode)
    | '>' => look (.wordEnd f.unicode)
    | c => if isPlain c then char c.toNat else none

/-! ## Bracketed classes -/

/-- The operations between the unions of a class. -/
inductive SetOp where
  | inter
  | difference
  | symmetric
deriving DecidableEq, Repr

def SetOp.apply (top : Nat) : SetOp → CharSet → CharSet → CharSet
  | inter => CharSet.inter top
  | difference => CharSet.difference top
  | symmetric => CharSet.symmetricDifference top

/-- A set that is being read, and how deep the brackets and operations in it are nested. -/
structure Nested where
  set : CharSet
  depth : Nat

/-- The union of the items read so far. -/
structure Items where
  set : CharSet
  count : Nat
  depth : Nat

def Items.none : Items := ⟨[], 0, 0⟩

def Items.add (u : Items) (s : CharSet) (depth : Nat) : Items :=
  ⟨s ++ u.set, u.count + 1, max u.depth depth⟩

/-- A union counts as a level if it has two items or more. -/
def Items.nested (u : Items) : Nested := ⟨u.set, if 2 ≤ u.count then u.depth + 1 else u.depth⟩

/-- A union behind what stands to its left. -/
def combine (f : Flags) (left : Option (SetOp × Nested)) (u : Items) : Nested :=
  match left with
  | none => u.nested
  | some (op, l) =>
    ⟨op.apply f.top (f.fold l.set) (f.fold u.set), max l.depth u.nested.depth + 1⟩

/-- A character as an item of a class. -/
def member? (f : Flags) (c : Char) : Option CharSet := f.allow [(c.toNat, c.toNat)]

/-- A character or an escape in a class. -/
def classAtom? (f : Flags) : List Char → Option (Atom × List Char)
  | [] => none
  | '\\' :: cs => escape? f cs
  | c :: cs => some (.char c false, cs)

/-- The next character behind a dash that decides whether the dash makes a range. -/
def peek? (f : Flags) (cs : List Char) : Option Char :=
  if f.spaced then
    let next := match cs.dropWhile isBlank with
      | '#' :: rest => rest.dropWhile isBlank
      | rest => rest
    if next.isEmpty then cs.head? else next.head?
  else cs.head?

/-- An item of a class: a character, an escape or a range. -/
def classItem? (f : Flags) (cs : List Char) : Option (CharSet × List Char) := do
  let (first, rest) ← classAtom? f cs
  let alone : Option (CharSet × List Char) := match first with
    | .char c _ => (member? f c).map fun s => (s, f.skip rest)
    | .set s => some (s, f.skip rest)
    | .look _ => none
  match f.skip rest with
  | [] => none
  | '-' :: more =>
    if peek? f more == some ']' || peek? f more == some '-' then alone
    else
      let (second, rest) ← classAtom? f (f.skip more)
      match first, second with
      | .char a _, .char b _ =>
        if a ≤ b then some (← f.allow [(a.toNat, b.toNat)], rest) else none
      | _, _ => none
  | _ => alone

/-- A class of ASCII characters by name, behind `[`. -/
def namedClass? (f : Flags) : List Char → Option (Option CharSet × List Char)
  | ':' :: cs =>
    let (negated, cs) := match cs with
      | '^' :: more => (true, more)
      | _ => (false, cs)
    match cut ':' cs with
    | some (name, ']' :: rest) =>
      (CharSet.asciiClass? name).map fun s => (f.sign negated (f.fold s), rest)
    | _ => none
  | _ => none

/-- The dashes at the start of a class stand for themselves. -/
def leadingDashes (f : Flags) : Nat → Items → List Char → Items × List Char
  | 0, u, cs => (u, cs)
  | fuel + 1, u, cs =>
    match cs with
    | '-' :: rest => leadingDashes f fuel (u.add [('-'.toNat, '-'.toNat)] 0) (f.skip rest)
    | _ => (u, cs)

/-- The start of a class behind `[`: whether it is negated, and what stands for itself there. -/
def openClass (f : Flags) (cs : List Char) : Bool × Items × List Char :=
  let (negated, cs) := match f.skip cs with
    | '^' :: rest => (true, f.skip rest)
    | cs => (false, cs)
  let (u, cs) := leadingDashes f cs.length .none cs
  match u.count, cs with
  | 0, ']' :: rest => (negated, u.add [(']'.toNat, ']'.toNat)] 0, f.skip rest)
  | _, cs => (negated, u, cs)

/-- Reads a class up to its closing bracket. -/
def classRest? (f : Flags) :
    Nat → Bool → Option (SetOp × Nested) → Items → List Char → Option (Nested × List Char)
  | 0, _, _, _, _ => none
  | fuel + 1, negated, left, u, cs =>
    let operator (op : SetOp) (rest : List Char) : Option (Nested × List Char) :=
      classRest? f fuel negated (some (op, combine f left u)) .none rest
    match f.skip cs with
    | ']' :: rest =>
      let whole := combine f left u
      (f.sign negated (f.fold whole.set)).map fun s => (⟨s, whole.depth + 1⟩, rest)
    | '[' :: rest =>
      match namedClass? f rest with
      | some (set, rest) =>
        set.bind fun s => classRest? f fuel negated left (u.add s 0) rest
      | none =>
        let (innerNegated, start, rest) := openClass f rest
        match classRest? f fuel innerNegated none start rest with
        | some (inner, rest) => classRest? f fuel negated left (u.add inner.set inner.depth) rest
        | none => none
    | '&' :: '&' :: rest => operator .inter rest
    | '-' :: '-' :: rest => operator .difference rest
    | '~' :: '~' :: rest => operator .symmetric rest
    | cs =>
      match classItem? f cs with
      | some (s, rest) => classRest? f fuel negated left (u.add s 0) rest
      | none => none

/-- A class behind its opening bracket. -/
def class? (f : Flags) (cs : List Char) : Option (Nested × List Char) :=
  let (negated, start, rest) := openClass f cs
  classRest? f (cs.length + 1) negated none start rest

end GameConfig.Pattern
