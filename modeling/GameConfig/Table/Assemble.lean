import GameConfig.Load.Loader
import GameConfig.Rule.RuleSet
import GameConfig.Table.Basic

/-
  Loading a table.

  All records are loaded and checked, also those behind one that does not load,
  so that the log holds every failure.  The first record that does not load
  decides the error; then the records are put together as the mode of the table
  says.
-/

namespace GameConfig

/-- A loader for the records of a table, with the rules that they are checked by. -/
structure TableLoader where
  loader : Loader
  rules : RuleSet
  table : TableDef

namespace TableLoader

/-- A record by its place in the table. -/
def place (t : TableLoader) (index : Nat) : String :=
  t.table.name ++ "[" ++ integerText index ++ "]"

/-- Loads one record. -/
def record (t : TableLoader) (index : Nat) (raw : RawRecord) : Except TableError Record :=
  match t.loader.loadBean t.table.valueType raw.value with
  | .ok r => .ok r
  | .error e => .error (.record t.table.fullName raw.source index e)

/-- What the rules have to say about a record, if it loads. -/
def failures (t : TableLoader) (index : Nat) (raw : RawRecord) : List Failure :=
  match t.record index raw with
  | .ok r => t.rules.faults t.loader.schema raw.source (t.place index) r
  | .error _ => []

/-- Loads the records from number `index` on, up to the first that does not load. -/
def records (t : TableLoader) (index : Nat) : List RawRecord → Except TableError (List Record)
  | [] => .ok []
  | raw :: rest =>
    match t.record index raw with
    | .error e => .error e
    | .ok r =>
      match t.records (index + 1) rest with
      | .error e => .error e
      | .ok rs => .ok (r :: rs)

/-- The failures of the records from number `index` on. -/
def allFailures (t : TableLoader) (index : Nat) : List RawRecord → List Failure
  | [] => []
  | raw :: rest => t.failures index raw ++ t.allFailures (index + 1) rest

/-! ## Shapes -/

/-- The value of the index field of a record. -/
def key? (t : TableLoader) (r : Record) : Option Datum :=
  ((t.loader.schema.bean t.table.valueType).fieldIndex? (t.table.index.getD "")).bind fun i =>
    (r.fields[i]?).join

/-- Puts records from number `index` on under their keys, behind those before them. -/
def insertAll (t : TableLoader) (index : Nat) (acc : List (Datum × Record)) :
    List (RawRecord × Record) → Except TableError (List (Datum × Record))
  | [] => .ok acc
  | (raw, r) :: rest =>
    match t.key? r with
    | none => .error (.nullKey t.table.fullName (t.table.index.getD "") index)
    | some key =>
      match acc.find? fun e => key.same e.1 with
      | some e =>
        let key := (e.1.toJson t.loader.schema).compact
        .error (.duplicateKey t.table.fullName key raw.source index)
      | none => t.insertAll (index + 1) (acc ++ [(key, r)]) rest

/-- The loaded records in the shape of the table's mode. -/
def assemble (t : TableLoader) (raws : List RawRecord) (rs : List Record) :
    Except TableError TableData :=
  match t.table.mode with
  | .list | .array => .ok (.list rs)
  | .one | .singleton | .single =>
    match rs with
    | [r] => .ok (.one r)
    | rs => .error (.recordCount t.table.fullName rs.length)
  | .map => (t.insertAll 0 [] (raws.zip rs)).map TableData.map

/-- Loads a table; the failures of its records are put behind those in the log. -/
def load (t : TableLoader) (raws : List RawRecord) (log : List Failure) :
    Except TableError TableData × List Failure :=
  let data := match t.records 0 raws with
    | .error e => .error e
    | .ok rs => t.assemble raws rs
  (data, log ++ t.allFailures 0 raws)

end TableLoader

end GameConfig
