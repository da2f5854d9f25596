import GameConfig.Assoc
import GameConfig.Number.Numeral

/-
  JSON values.

  A number is an integer of 64 bits, signed or not, or a double; the two
  never stand for one another.  The members of an object keep their order, and
  `Json.object` values that are read or built have distinct keys.
-/

namespace GameConfig

/-- A JSON number. -/
inductive Json.Number where
  | int (value : Int)
  | double (value : Double)
deriving DecidableEq, Repr

/-- A JSON value. -/
inductive Json where
  | null
  | bool (value : Bool)
  | number (value : Json.Number)
  | string (value : String)
  | array (items : List Json)
  | object (members : List (String × Json))
deriving Repr, Inhabited

namespace Json

/-- The value as an integer of 64 bits with sign. -/
def int64? : Json → Option Int
  | .number (.int i) => if Numeral.fitsInt64 i then some i else none
  | _ => none

/-- The number as a double. -/
def Number.toDouble : Number → Double
  | .int i => .ofInt i
  | .double x => x

/-- Any number as a double. -/
def double? : Json → Option Double
  | .number n => some n.toDouble
  | _ => none

def string? : Json → Option String
  | .string s => some s
  | _ => none

def bool? : Json → Option Bool
  | .bool b => some b
  | _ => none

def array? : Json → Option (List Json)
  | .array items => some items
  | _ => none

def object? : Json → Option (List (String × Json))
  | .object members => some members
  | _ => none

/-- The member with this key, if the value is an object that has it. -/
def member? (key : String) : Json → Option Json
  | .object members => Assoc.find? key members
  | _ => none

/-- A number written from an integer. -/
def ofInt (i : Int) : Json := .number (.int i)

/-- A number written from a natural number. -/
def ofNat (n : Nat) : Json := .number (.int n)

/-- A finite double as a number; the others have no JSON form and become `null`. -/
def ofDouble (x : Double) : Json := if x.isFinite then .number (.double x) else .null

/-- A text, or `null` for none. -/
def ofString? : Option String → Json
  | some s => .string s
  | none => .null

/-- Sets a member of an object; any other value is left as it is. -/
def set (o : Json) (key : String) (value : Json) : Json :=
  match o with
  | .object members => .object (Assoc.insert key value members)
  | other => other

/-- Changes the member with this key, if the value is an object that has it. -/
def update (o : Json) (key : String) (f : Json → Json) : Json :=
  match o with
  | .object members => .object (members.map fun (k, v) => if k = key then (k, f v) else (k, v))
  | other => other

end Json

end GameConfig
