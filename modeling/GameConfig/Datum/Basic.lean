import GameConfig.DateTime.Basic
import GameConfig.Schema.Basic

/-
  Typed values.

  A datum has one of the kinds of types.  A bean holds its fields in the order
  of all fields of the concrete bean it names, none standing for null.  A map
  holds its entries in the order of insertion.

  * `Datum.same` is equality of values: numbers by value, all that is not a
    number alike, maps without regard to order;
  * `Entries.find?` and `Entries.insert?` look keys up by that equality.
-/

namespace GameConfig

/-- A typed value. -/
inductive Datum where
  | bool (value : Bool)
  | integer (width : IntWidth) (value : Int)
  | float (value : Single)
  | double (value : Double)
  | string (value : String)
  | datetime (value : DateTime)
  | enum (id item : Nat)
  | bean (id : Nat) (fields : List (Option Datum))
  | seq (kind : SeqKind) (items : List Datum)
  | map (entries : List (Datum × Datum))
deriving Repr, Inhabited

/-- The entries of a map. -/
abbrev Entries := List (Datum × Datum)

/-- A value of a bean. -/
structure Record where
  bean : Nat
  fields : List (Option Datum)
deriving Repr, Inhabited

namespace Datum

/-- The word for the kind of a value. -/
def kindName : Datum → String
  | bool _ => "bool"
  | integer w _ => w.name
  | float _ => "float"
  | double _ => "double"
  | string _ => "string"
  | datetime _ => "datetime"
  | enum _ _ => "enum"
  | bean _ _ => "bean"
  | seq k _ => k.name
  | map _ => "map"

/-! ## Views -/

def bool? : Datum → Option Bool
  | bool b => some b
  | _ => none

def text? : Datum → Option String
  | string s => some s
  | _ => none

/-- The value of an integer of any width. -/
def integer? : Datum → Option Int
  | integer _ i => some i
  | _ => none

/-- The value of any number as a double. -/
def double? : Datum → Option Double
  | float x => some x.widen
  | double x => some x
  | integer _ i => some (.ofInt i)
  | _ => none

def items? : Datum → Option (List Datum)
  | seq _ xs => some xs
  | _ => none

def entries? : Datum → Option Entries
  | map es => some es
  | _ => none

def record? : Datum → Option Record
  | bean id fields => some ⟨id, fields⟩
  | _ => none

/-! ## Equality -/

mutual

/-- The values are equal. -/
def same : Datum → Datum → Bool
  | bool a, bool b => a == b
  | integer w a, integer v b => w == v && a == b
  | float a, float b => a.same b
  | double a, double b => a.same b
  | string a, string b => a == b
  | datetime a, datetime b => a == b
  | enum i a, enum j b => i == j && a == b
  | bean i a, bean j b => i == j && sameFields a b
  | seq k a, seq l b => k == l && sameItems a b
  | map a, map b => a.length == b.length && within a b
  | _, _ => false

/-- The items are equal one by one. -/
def sameItems : List Datum → List Datum → Bool
  | [], [] => true
  | a :: as, b :: bs => same a b && sameItems as bs
  | _, _ => false

/-- The fields are equal one by one, null to null. -/
def sameFields : List (Option Datum) → List (Option Datum) → Bool
  | [], [] => true
  | none :: as, none :: bs => sameFields as bs
  | some a :: as, some b :: bs => same a b && sameFields as bs
  | _, _ => false

/-- Every entry on the left is found on the right, with an equal value. -/
def within : List (Datum × Datum) → List (Datum × Datum) → Bool
  | [], _ => true
  | (k, v) :: rest, other =>
    (match other.find? fun e => same k e.1 with
      | some e => same v e.2
      | none => false) && within rest other

end

end Datum

namespace Entries

/-- The value under a key. -/
def find? (key : Datum) (es : Entries) : Option Datum :=
  (List.find? (fun e => key.same e.1) es).map (·.2)

/-- The entries with one more behind them, or the key that is there already. -/
def insert? (key value : Datum) (es : Entries) : Except Datum Entries :=
  match List.find? (fun e => key.same e.1) es with
  | some e => .error e.1
  | none => .ok (es ++ [(key, value)])

end Entries

namespace Record

def toDatum (r : Record) : Datum := .bean r.bean r.fields

/-- The value of a field by name; within it, none is null. -/
def field? (s : Schema) (name : String) (r : Record) : Option (Option Datum) :=
  ((s.bean r.bean).fieldIndex? name).bind fun i => r.fields[i]?

end Record

end GameConfig
