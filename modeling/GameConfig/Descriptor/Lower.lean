import GameConfig.Descriptor.Basic
import GameConfig.Schema.Builder
import GameConfig.Text.Blank

/-
  From a descriptor to a schema.

  All names are reserved before any type is read, enums first, so the order of
  declarations does not matter to types.  Items without a value continue from
  the integer before them, or from zero.
-/

namespace GameConfig

/-- Refuses what is not a name of the given form. -/
def checkName (isName : List Char → Bool) (name path : String) : Except SchemaError Unit :=
  if isName name.toList then .ok () else .error (.descriptor path (.invalidName name))

/-- The value of an item: what is written, a text that spells an integer standing for it, or the
    continuation of the values before. -/
def ItemEntry.lowerValue (next : Int) (i : ItemEntry) : ItemValue :=
  match i.value with
  | some (.int v) => .int v
  | some (.text s) =>
    match Numeral.readInt64? (Text.trim s.toList) with
    | some v => .int v
    | none => .text s
  | none => .int next

/-- The integer behind a value, up to the greatest of 64 bits. -/
def nextValue (next : Int) : ItemValue → Int
  | .int v => min (v + 1) Numeral.maxInt64
  | .text _ => next

/-- The items of an enum from number `j` on; `next` continues the values before. -/
def lowerItems (path : String) (next : Int) (j : Nat) :
    List ItemEntry → Except SchemaError (List EnumItem)
  | [] => .ok []
  | i :: items =>
    match checkName Notation.isName i.name (path ++ s!".items[{j}].name") with
    | .error err => .error err
    | .ok () =>
      let value := i.lowerValue next
      match lowerItems path (nextValue next value) (j + 1) items with
      | .error err => .error err
      | .ok lowered => .ok (⟨i.name, value, i.altName, i.comment⟩ :: lowered)

def EnumEntry.lower (index : Nat) (e : EnumEntry) : Except SchemaError EnumDef :=
  match lowerItems s!"enums[{index}]" 0 0 e.items with
  | .error err => .error err
  | .ok items => .ok ⟨e.name, items, e.flags, e.comment⟩

/-- The fields of a bean from number `j` on. -/
def lowerFields (builder : Builder) (bean path : String) (j : Nat) :
    List FieldEntry → Except SchemaError (List Field)
  | [] => .ok []
  | f :: fields =>
    match checkName Notation.isName f.name (path ++ s!".fields[{j}].name") with
    | .error err => .error err
    | .ok () =>
      match Ty.parse (builder.scope (namespaceOf bean) ("field `" ++ bean ++ "." ++ f.name ++ "`"))
          f.type with
      | .error err => .error err
      | .ok ty =>
        match lowerFields builder bean path (j + 1) fields with
        | .error err => .error err
        | .ok lowered => .ok (⟨f.name, f.altName, f.variants, ty, f.tags, f.comment⟩ :: lowered)

def BeanEntry.lower (builder : Builder) (index : Nat) (b : BeanEntry) :
    Except SchemaError BeanDecl :=
  match lowerFields builder b.name s!"beans[{index}]" 0 b.fields with
  | .error err => .error err
  | .ok fields => .ok ⟨b.name, b.parent, b.altName, fields, b.comment⟩

def TableEntry.lower (t : TableEntry) : TableDecl :=
  ⟨t.name, t.valueType, t.mode, t.index, t.inputFiles, t.comment⟩

namespace Descriptor

/-- Reserves the names of the enums from number `i` on. -/
def reserveEnums (b : Builder) (i : Nat) : List EnumEntry → Except SchemaError Builder
  | [] => .ok b
  | e :: es =>
    match checkName Notation.isFullName e.name s!"enums[{i}].name" with
    | .error err => .error err
    | .ok () => reserveEnums (b.enumId e.name).2 (i + 1) es

/-- Reserves the names of the beans from number `i` on. -/
def reserveBeans (b : Builder) (i : Nat) : List BeanEntry → Except SchemaError Builder
  | [] => .ok b
  | e :: es =>
    match checkName Notation.isFullName e.name s!"beans[{i}].name" with
    | .error err => .error err
    | .ok () => reserveBeans (b.beanId e.name).2 (i + 1) es

/-- Declares the enums from number `i` on. -/
def declareEnums (b : Builder) (i : Nat) : List EnumEntry → Except SchemaError Builder
  | [] => .ok b
  | e :: es =>
    match e.lower i with
    | .error err => .error err
    | .ok d => declareEnums (b.addEnum d).2 (i + 1) es

/-- Declares the beans from number `i` on. -/
def declareBeans (b : Builder) (i : Nat) : List BeanEntry → Except SchemaError Builder
  | [] => .ok b
  | e :: es =>
    match e.lower b i with
    | .error err => .error err
    | .ok d => declareBeans (b.addBean d).2 (i + 1) es

/-- All declarations of a descriptor. -/
def collect (d : Descriptor) : Except SchemaError Builder :=
  match reserveEnums .empty 0 d.enums with
  | .error err => .error err
  | .ok b =>
    match reserveBeans b 0 d.beans with
    | .error err => .error err
    | .ok b =>
      match declareEnums b 0 d.enums with
      | .error err => .error err
      | .ok b =>
        match declareBeans b 0 d.beans with
        | .error err => .error err
        | .ok b => .ok (d.tables.foldl (fun b t => b.addTable t.lower) b)

/-- The schema that a descriptor describes. -/
def build (d : Descriptor) : Except SchemaError Schema :=
  match d.collect with
  | .error err => .error err
  | .ok b => b.build

end Descriptor

end GameConfig
