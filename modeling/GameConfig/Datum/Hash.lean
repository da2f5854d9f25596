import GameConfig.Datum.Basic

/-
  What values feed a hasher with.

  A hasher takes words one after the other, and the words of a value decide its
  hash.  A value feeds the number of its variant and then its parts in order; a
  map feeds only its size, because equality does not look at the order of its
  entries.  What floating-point numbers and times feed is up to a `HashScheme`.

  * `Datum.feed` and `Entries.feed` are the words of values and of maps.
-/

namespace GameConfig

/-- What a hasher takes in one step. -/
inductive HashWord where
  /-- A natural number in so many bits. -/
  | unsigned (bits value : Nat)
  /-- An integer in so many bits. -/
  | signed (bits : Nat) (value : Int)
  /-- The place of a variant among those of its type. -/
  | variant (place : Nat)
  /-- The number of items that follow. -/
  | length (count : Nat)
  /-- A size, a number of a declaration or a position. -/
  | size (value : Nat)
  | text (value : String)
deriving DecidableEq, Repr

/-- What floating-point numbers and times feed a hasher with. -/
structure HashScheme where
  float : Single → List HashWord
  double : Double → List HashWord
  datetime : DateTime → List HashWord

/-- Equal numbers feed the same words. -/
structure HashScheme.Lawful (h : HashScheme) : Prop where
  float : ∀ x y : Single, x.same y = true → h.float x = h.float y
  double : ∀ x y : Double, x.same y = true → h.double x = h.double y

/-- The place of the variant for integers of a width. -/
def IntWidth.variant : IntWidth → Nat
  | byte => 1
  | short => 2
  | int => 3
  | long => 4

/-- An integer of a width. -/
def IntWidth.word : IntWidth → Int → HashWord
  | byte, i => .unsigned 8 i.toNat
  | short, i => .signed 16 i
  | int, i => .signed 32 i
  | long, i => .signed 64 i

/-- The place of the variant for sequences of a kind. -/
def SeqKind.variant : SeqKind → Nat
  | array => 11
  | list => 12
  | set => 13

/-- The words of a map. -/
def Entries.feed (es : Entries) : List HashWord := [.size es.length]

namespace Datum

mutual

/-- The words of a value. -/
def feed (h : HashScheme) : Datum → List HashWord
  | bool b => [.variant 0, .unsigned 8 b.toNat]
  | integer w i => [.variant w.variant, w.word i]
  | float x => .variant 5 :: h.float x
  | double x => .variant 6 :: h.double x
  | string s => [.variant 7, .text s]
  | datetime t => .variant 8 :: h.datetime t
  | enum id item => [.variant 9, .size id, .size item]
  | bean id fields => .variant 10 :: .size id :: .length fields.length :: feedFields h fields
  | seq k items => .variant k.variant :: .length items.length :: feedItems h items
  | map entries => .variant 14 :: Entries.feed entries

/-- The words of items, one after the other. -/
def feedItems (h : HashScheme) : List Datum → List HashWord
  | [] => []
  | d :: ds => feed h d ++ feedItems h ds

/-- The words of fields, one after the other; null is a variant of its own. -/
def feedFields (h : HashScheme) : List (Option Datum) → List HashWord
  | [] => []
  | none :: ds => .variant 0 :: feedFields h ds
  | some d :: ds => .variant 1 :: feed h d ++ feedFields h ds

end

end Datum

end GameConfig
