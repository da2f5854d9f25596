import GameConfig.Datum.Export
import GameConfig.Json.Printer
import GameConfig.Load.Error

/-
  Records of tables, before and after loading.

  * `RawRecord.ofInput` gives the records of one input file;
  * `TableData` holds the loaded records in the shape of the table's mode, and
    `TableData.get?` finds a record by its key;
  * `TableError` says why a table has no data.
-/

namespace GameConfig

/-- The mark in front of an input file that holds a list of records. -/
def listMark : String := "*@"

/-- Whether an input file holds a list of records, and its path. -/
def splitInput (input : String) : Bool × String :=
  match Text.dropFront? listMark.toList input.toList with
  | some path => (true, String.ofList path)
  | none => (false, input)

/-- A record as it stands in a file. -/
structure RawRecord where
  source : String
  value : Json
deriving Repr

/-- The records of an input file: the items of a list where one is expected, else one record. -/
def RawRecord.ofInput (input : String) (value : Json) : List RawRecord :=
  let (isList, path) := splitInput input
  match isList, value with
  | true, .array items => items.map (RawRecord.mk path)
  | _, value => [⟨path, value⟩]

/-- The records of a table. -/
inductive TableData where
  | map (entries : List (Datum × Record))
  | list (records : List Record)
  | one (record : Record)
deriving Repr

namespace TableData

/-- The records, in the order of the input. -/
def records : TableData → List Record
  | map es => es.map (·.2)
  | list rs => rs
  | one r => [r]

def size (d : TableData) : Nat := d.records.length

def isEmpty (d : TableData) : Bool := d.size == 0

/-- The record under a key; only maps have keys. -/
def get? (key : Datum) : TableData → Option Record
  | map es => (es.find? fun e => key.same e.1).map (·.2)
  | _ => none

end TableData

/-- Why a table has no data. -/
inductive TableError where
  | record (table source : String) (index : Nat) (error : LoadError)
  | duplicateKey (table key source : String) (index : Nat)
  | nullKey (table field : String) (index : Nat)
  | recordCount (table : String) (count : Nat)
deriving DecidableEq, Repr

def TableError.message : TableError → String
  | record table source index error =>
    s!"table `{table}`: record {index} from `{source}`: " ++ error.message
  | duplicateKey table key source index =>
    s!"table `{table}`: duplicate key {key} (record {index} from `{source}`)"
  | nullKey table field index =>
    s!"table `{table}`: record {index} has a null index field `{field}`"
  | recordCount table count =>
    s!"table `{table}` is a single-record table but {count} records were supplied"

end GameConfig
