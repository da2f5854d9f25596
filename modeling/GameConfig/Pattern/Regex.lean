import GameConfig.Pattern.CharSet

/-
  Regular expressions and the texts they match.

  Besides characters, an expression can ask about the place between two
  characters (`Look`).  `Regex.empties` tells whether it matches without taking
  a character at a place, `Regex.after` gives what is left of it behind a
  character, as a list of alternatives.  A text is matched if the expression
  matches some part of it; the search carries the alternatives that are alive
  from one character to the next, so it takes one pass over the text.
-/

namespace GameConfig.Pattern

open Text

/-- A question about the place between two characters. -/
inductive Look where
  | textStart
  | textEnd
  | lineStart
  | lineEnd
  /-- As `lineStart` and `lineEnd`, where a line may also end in a carriage return. -/
  | returnStart
  | returnEnd
  | wordBoundary (unicode : Bool)
  | noWordBoundary (unicode : Bool)
  | wordStart (unicode : Bool)
  | wordEnd (unicode : Bool)
  | wordStartHalf (unicode : Bool)
  | wordEndHalf (unicode : Bool)
deriving DecidableEq, Repr

/-- A place in a text: the characters before and behind it. -/
structure Place where
  before : Option Char
  behind : Option Char
deriving DecidableEq, Repr

/-- There is a word character. -/
def isWord (unicode : Bool) : Option Char → Bool
  | none => false
  | some c =>
    if unicode then wordRanges.has c.toNat
    else CharSet.asciiWords.any fun r => r.1 ≤ c.toNat && c.toNat ≤ r.2

/-- The answer at a place. -/
def Look.holds (p : Place) : Look → Bool
  | textStart => p.before.isNone
  | textEnd => p.behind.isNone
  | lineStart => p.before.isNone || p.before == some '\n'
  | lineEnd => p.behind.isNone || p.behind == some '\n'
  | returnStart =>
    p.before.isNone || p.before == some '\n' ||
      (p.before == some '\r' && p.behind != some '\n')
  | returnEnd =>
    p.behind.isNone || p.behind == some '\r' ||
      (p.behind == some '\n' && p.before != some '\r')
  | wordBoundary u => isWord u p.before != isWord u p.behind
  | noWordBoundary u => isWord u p.before == isWord u p.behind
  | wordStart u => !isWord u p.before && isWord u p.behind
  | wordEnd u => isWord u p.before && !isWord u p.behind
  | wordStartHalf u => !isWord u p.before
  | wordEndHalf u => !isWord u p.behind

/-- A regular expression. -/
inductive Regex where
  | empty
  | chars (set : Ranges)
  | look (kind : Look)
  | cat (first second : Regex)
  | alt (left right : Regex)
  /-- At least `min` and at most `max` times, without limit if `max` is none. -/
  | times (min : Nat) (max : Option Nat) (body : Regex)
deriving DecidableEq, Repr

namespace Regex

/-- The expression matches without taking a character here. -/
def empties (p : Place) : Regex → Bool
  | empty => true
  | chars _ => false
  | look k => k.holds p
  | cat a b => a.empties p && b.empties p
  | alt a b => a.empties p || b.empties p
  | times min _ r => min == 0 || r.empties p

/-- One expression behind another, leaving out what is empty. -/
def join : Regex → Regex → Regex
  | empty, b => b
  | a, b => cat a b

/-- What may be left of the expression behind a character.  A repetition whose body is empty
    here has made up all that is still required of it. -/
def after (p : Place) (c : Char) : Regex → List Regex
  | empty => []
  | chars set => if set.has c.toNat then [empty] else []
  | look _ => []
  | cat a b =>
    let inFirst := (a.after p c).map fun r => join r b
    if a.empties p then inFirst ++ b.after p c else inFirst
  | alt a b => a.after p c ++ b.after p c
  | times min max r =>
    match max with
    | some 0 => []
    | max =>
      let left := times (if r.empties p then 0 else min - 1) (max.map (· - 1)) r
      (r.after p c).map fun s => join s left

/-- The expression matches a part of the text that starts here or further on, or one of the
    alternatives in `alive`, which started before, ends here or further on. -/
def search (r : Regex) (before : Option Char) (alive : List Regex) : List Char → Bool
  | [] => (r :: alive).any (empties ⟨before, none⟩)
  | c :: cs =>
    let p : Place := ⟨before, some c⟩
    let now := r :: alive
    now.any (empties p) || search r (some c) (now.flatMap (after p c)).eraseDups cs

/-- The expression matches some part of the text. -/
def isIn (r : Regex) (text : String) : Bool := r.search none [] text.toList

/-- About how much room the expression takes in compiled form. -/
def room : Regex → Nat
  | empty => 32
  | chars set =>
    set.foldl (fun n r => n + (if r.2 < 128 then 8 else 64)) 32
  | look _ => 32
  | cat a b => a.room + b.room
  | alt a b => a.room + b.room + 32
  | times min max r =>
    match max with
    | some m => r.room * Nat.max m 1 + 32 * (m - min)
    | none => r.room * Nat.max min 1 + 32

end Regex

end GameConfig.Pattern
