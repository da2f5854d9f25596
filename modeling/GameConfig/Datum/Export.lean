import GameConfig.Datum.Basic
import GameConfig.Json.Basic
import GameConfig.Number.Printer

/-
  Typed values as JSON.

  The exported form loads as an equal value again.  A single is written as the
  double nearest to its shortest decimal, a map as a list of pairs, and a bean
  that has a parent begins with its discriminator.
-/

namespace GameConfig

/-- The double nearest to the shortest decimal of a single. -/
def Single.exported (x : Single) : Double := (Numeral.readDouble? x.displayChars).getD .nan

namespace Datum

mutual

/-- The JSON form of a value. -/
def toJson (s : Schema) : Datum → Json
  | bool b => .bool b
  | integer _ i => .ofInt i
  | float x => .ofDouble x.exported
  | double x => .ofDouble x
  | string t => .string t
  | datetime t => .string t.toText
  | enum id item => .string ((s.enum id).itemName item)
  | bean id fields =>
    let b := s.bean id
    let head := if b.parent.isSome then [(typeKey, Json.string (s.discriminator b))] else []
    .object (Assoc.ofEntries (head ++ fieldsJson s b.allFields fields))
  | seq _ items => .array (itemsJson s items)
  | map entries => .array (entriesJson s entries)

def itemsJson (s : Schema) : List Datum → List Json
  | [] => []
  | d :: ds => toJson s d :: itemsJson s ds

/-- The members of a bean, as far as there are both fields and values. -/
def fieldsJson (s : Schema) : List Field → List (Option Datum) → List (String × Json)
  | f :: fs, some d :: ds => (f.name, toJson s d) :: fieldsJson s fs ds
  | f :: fs, none :: ds => (f.name, .null) :: fieldsJson s fs ds
  | _, _ => []

def entriesJson (s : Schema) : List (Datum × Datum) → List Json
  | [] => []
  | (k, v) :: es => .array [toJson s k, toJson s v] :: entriesJson s es

end

end Datum

def Record.toJson (s : Schema) (r : Record) : Json := r.toDatum.toJson s

end GameConfig
