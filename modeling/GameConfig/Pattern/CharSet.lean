import GameConfig.Text.Blank
import GameConfig.Text.CaseFold
import GameConfig.Text.Category
import GameConfig.Text.Property
import GameConfig.Text.Script

/-
  Sets of characters.

  A set is a list of ranges of code points, sorted and apart (`CharSet.normal`).
  Sets are joined, cut and complemented below a greatest code point, closed
  under change of case, and looked up by the names of properties.
-/

namespace GameConfig.Pattern

open Text

/-- Ranges of code points, both ends included. -/
abbrev CharSet := List (Nat × Nat)

namespace CharSet

/-- The greatest code point. -/
def greatest : Nat := 0x10FFFF

/-- Joins the ranges of a sorted list that touch, starting from a current range. -/
def merge (a b : Nat) : List (Nat × Nat) → CharSet
  | [] => [(a, b)]
  | (c, d) :: rest => if c ≤ b + 1 then merge a (max b d) rest else (a, b) :: merge c d rest

/-- The same set with its ranges sorted and apart. -/
def normal (s : CharSet) : CharSet :=
  match s.mergeSort fun x y => x.1 ≤ y.1 with
  | [] => []
  | (a, b) :: rest => merge a b rest

def union (s t : CharSet) : CharSet := normal (s ++ t)

/-- What lies from `next` to `top` outside the ranges of a normal set. -/
def outside (top next : Nat) : CharSet → CharSet
  | [] => if next ≤ top then [(next, top)] else []
  | (a, b) :: rest =>
    if next < a then (next, a - 1) :: outside top (b + 1) rest else outside top (b + 1) rest

/-- The code points up to `top` that are not in the set. -/
def complement (top : Nat) (s : CharSet) : CharSet := outside top 0 (normal s)

def inter (top : Nat) (s t : CharSet) : CharSet :=
  complement top (complement top s ++ complement top t)

def difference (top : Nat) (s t : CharSet) : CharSet := inter top s (complement top t)

def symmetricDifference (top : Nat) (s t : CharSet) : CharSet :=
  union (difference top s t) (difference top t s)

def ofRanges (r : Ranges) : CharSet := r.toList

/-- The ranges of a normal set. -/
def toRanges (s : CharSet) : Ranges := (normal s).toArray

/-- The set and all characters that differ from one of its in case only. -/
def foldCase (s : CharSet) : CharSet :=
  let r := s.toRanges
  let more := foldGroups.toList.filter fun g => g.any r.has
  normal (s ++ more.flatMap fun g => g.map fun n => (n, n))

/-- The part of a range inside another, moved up or down. -/
def moved (low high : Nat) (shift : Int) (r : Nat × Nat) : CharSet :=
  let a := max r.1 low
  let b := min r.2 high
  if a ≤ b then [((a + shift).toNat, (b + shift).toNat)] else []

/-- The set and the ASCII letters that differ from one of its in case only. -/
def foldAscii (s : CharSet) : CharSet :=
  normal (s ++ s.flatMap (moved 65 90 32) ++ s.flatMap (moved 97 122 (-32)))

/-! ## Properties by name -/

/-- The set of a table under a name. -/
def named? (table : List (List String × String)) (name : String) : Option CharSet :=
  (table.find? fun e => e.1.contains name).map fun e => ofRanges (Ranges.ofText e.2)

/-- The set of a table under a name that is known to be there. -/
def named (table : List (List String × String)) (name : String) : CharSet :=
  (named? table name).getD []

/-- General categories that unite others. -/
def categoryGroups : List (List String × List String) := [
  (["l", "letter"], ["lu", "ll", "lt", "lm", "lo"]),
  (["lc", "casedletter"], ["lu", "ll", "lt"]),
  (["m", "mark", "combiningmark"], ["mn", "mc", "me"]),
  (["n", "number"], ["nd", "nl", "no"]),
  (["p", "punctuation", "punct"], ["pc", "pd", "ps", "pe", "pi", "pf", "po"]),
  (["s", "symbol"], ["sm", "sc", "sk", "so"]),
  (["z", "separator"], ["zs", "zl", "zp"]),
  (["c", "other"], ["cc", "cf", "co", "cn"])]

/-- A general category by name. -/
def category? (name : String) : Option CharSet :=
  if name = "any" then some [(0, greatest)]
  else if name = "ascii" then some [(0, 127)]
  else if name = "assigned" then some (complement greatest (named categoryTexts "cn"))
  else match categoryGroups.find? fun g => g.1.contains name with
    | some g => some (normal (g.2.flatMap (named categoryTexts)))
    | none => named? categoryTexts name

def script? (name : String) : Option CharSet := named? scriptTexts name

/-- A property that characters have or have not, by name. -/
def property? (name : String) : Option CharSet :=
  if name = "cf" || name = "sc" || name = "lc" then none else named? propertyTexts name

/-- Names are compared in lower case, without blanks, dashes and underscores, and without `is`
    in front. -/
def plainName (name : List Char) : String :=
  let lower (c : Char) : Char := if 'A' ≤ c && c ≤ 'Z' then Char.ofNat (c.toNat + 32) else c
  let cs := (name.map lower).filter fun c =>
    c ≠ ' ' && c ≠ '_' && c ≠ '-' && c.toNat < 128
  match name.map lower, cs with
  | 'i' :: 's' :: _, 'i' :: 's' :: rest => if rest = ['c'] then "isc" else String.ofList rest
  | _, _ => String.ofList cs

/-- The set that a name alone stands for. -/
def byName? (name : List Char) : Option CharSet :=
  let n := plainName name
  match property? n with
  | some s => some s
  | none =>
    match category? n with
    | some s => some s
    | none => script? n

/-- The set of the characters with a value of a property. -/
def byValue? (property value : List Char) : Option CharSet :=
  let p := plainName property
  let v := plainName value
  if p = "gc" || p = "generalcategory" then category? v
  else if p = "sc" || p = "script" || p = "scx" || p = "scriptextensions" then script? v
  else none

/-! ## The classes with letters of their own -/

def digits (unicode : Bool) : CharSet := if unicode then named categoryTexts "nd" else [(48, 57)]

def spaces (unicode : Bool) : CharSet :=
  if unicode then named propertyTexts "whitespace" else [(9, 13), (32, 32)]

/-- Word characters: letters, marks, digits, connectors and joiners. -/
def unicodeWords : CharSet :=
  normal (named propertyTexts "alphabetic" ++ (category? "m").getD [] ++
    named categoryTexts "nd" ++ named categoryTexts "pc" ++ named propertyTexts "joincontrol")

def asciiWords : CharSet := [(48, 57), (65, 90), (95, 95), (97, 122)]

def words (unicode : Bool) : CharSet := if unicode then unicodeWords else asciiWords

/-- The classes of ASCII characters by name. -/
def asciiClass? (name : List Char) : Option CharSet :=
  match String.ofList name with
  | "alnum" => some [(48, 57), (65, 90), (97, 122)]
  | "alpha" => some [(65, 90), (97, 122)]
  | "ascii" => some [(0, 127)]
  | "blank" => some [(9, 9), (32, 32)]
  | "cntrl" => some [(0, 31), (127, 127)]
  | "digit" => some [(48, 57)]
  | "graph" => some [(33, 126)]
  | "lower" => some [(97, 122)]
  | "print" => some [(32, 126)]
  | "punct" => some [(33, 47), (58, 64), (91, 96), (123, 126)]
  | "space" => some [(9, 13), (32, 32)]
  | "upper" => some [(65, 90)]
  | "word" => some asciiWords
  | "xdigit" => some [(48, 57), (65, 70), (97, 102)]
  | _ => none

end CharSet

/-- The word characters, for looking up. -/
def wordRanges : Ranges := CharSet.unicodeWords.toRanges

/-- The letters of any script, for looking up. -/
def letterRanges : Ranges := (CharSet.named propertyTexts "alphabetic").toRanges

/-- The characters that are numbers, for looking up. -/
def numberRanges : Ranges := ((CharSet.category? "n").getD []).toRanges

end GameConfig.Pattern
