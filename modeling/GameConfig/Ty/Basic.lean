import GameConfig.Assoc

/-
  Types of values.

  A type is a scalar, a reference to an enum or a bean, a sequence of elements
  or a map.  Every node of it carries a `Mark`: whether null is allowed, and
  tags in the order of their first mention.  Enums and beans are referred to by
  number.
-/

namespace GameConfig

/-- Annotations of a type or a field: texts by key. -/
abbrev Tags := Assoc String

/-- What is written on a node of a type. -/
structure Mark where
  nullable : Bool
  tags : Tags
deriving DecidableEq, Repr, Inhabited

/-- The mark with nothing on it. -/
def Mark.plain : Mark := ⟨false, []⟩

/-- The widths of integers. -/
inductive IntWidth where
  | byte
  | short
  | int
  | long
deriving DecidableEq, Repr

namespace IntWidth

/-- The least integer of a width. -/
def least : IntWidth → Int
  | byte => 0
  | short => -32768
  | int => -2147483648
  | long => -9223372036854775808

/-- The greatest integer of a width. -/
def greatest : IntWidth → Int
  | byte => 255
  | short => 32767
  | int => 2147483647
  | long => 9223372036854775807

/-- The integer has this width. -/
def holds (w : IntWidth) (i : Int) : Bool := w.least ≤ i && i ≤ w.greatest

def name : IntWidth → String
  | byte => "byte"
  | short => "short"
  | int => "int"
  | long => "long"

end IntWidth

/-- The types without parts. -/
inductive Scalar where
  | bool
  | integer (width : IntWidth)
  | float
  | double
  | string
  | datetime
deriving DecidableEq, Repr

/-- The word for a scalar type. -/
def Scalar.name : Scalar → String
  | bool => "bool"
  | integer w => w.name
  | float => "float"
  | double => "double"
  | string => "string"
  | datetime => "datetime"

/-- All scalar types. -/
def Scalar.all : List Scalar :=
  [bool, integer .byte, integer .short, integer .int, integer .long, float, double, string,
    datetime]

/-- The three kinds of sequences. -/
inductive SeqKind where
  | array
  | list
  | set
deriving DecidableEq, Repr

def SeqKind.name : SeqKind → String
  | array => "array"
  | list => "list"
  | set => "set"

/-- A named type: a bean or an enum, by number. -/
inductive TypeRef where
  | bean (id : Nat)
  | enum (id : Nat)
deriving DecidableEq, Repr

/-- A type, with a mark on every node. -/
inductive Ty where
  | scalar (mark : Mark) (kind : Scalar)
  | named (mark : Mark) (ref : TypeRef)
  | seq (mark : Mark) (kind : SeqKind) (elem : Ty)
  | map (mark : Mark) (key value : Ty)
deriving DecidableEq, Repr

namespace Ty

def mark : Ty → Mark
  | scalar m _ | named m _ | seq m _ _ | map m _ _ => m

def withMark (m : Mark) : Ty → Ty
  | scalar _ k => scalar m k
  | named _ r => named m r
  | seq _ k e => seq m k e
  | map _ k v => map m k v

def nullable (ty : Ty) : Bool := ty.mark.nullable

def tags (ty : Ty) : Tags := ty.mark.tags

/-- The text of a tag. -/
def tag? (ty : Ty) (key : String) : Option String := Assoc.find? key ty.tags

def hasTag (ty : Ty) (key : String) : Bool := Assoc.has key ty.tags

/-- The type that allows null as well. -/
def orNull (ty : Ty) : Ty := ty.withMark { ty.mark with nullable := true }

/-- The type with one more tag. -/
def withTag (ty : Ty) (key value : String) : Ty :=
  ty.withMark { ty.mark with tags := Assoc.insert key value ty.tags }

/-- The element type of a sequence. -/
def element? : Ty → Option Ty
  | seq _ _ e => some e
  | _ => none

def isCollection : Ty → Bool
  | seq _ _ _ | map _ _ _ => true
  | _ => false

def isInteger : Ty → Bool
  | scalar _ (.integer _) => true
  | _ => false

def isNumeric : Ty → Bool
  | scalar _ (.integer _) | scalar _ .float | scalar _ .double => true
  | _ => false

/-- Keys of this type may be written as the keys of a JSON object. -/
def isTextKey : Ty → Bool
  | scalar _ .string | named _ (.enum _) => true
  | ty => ty.isNumeric

end Ty

end GameConfig
