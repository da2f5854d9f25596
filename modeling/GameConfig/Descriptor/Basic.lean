import GameConfig.Json.Basic
import GameConfig.Schema.Basic

/-
  Descriptors: schemas as they are written down.

  A descriptor lists enums, beans and tables, with types as expressions.
  `Descriptor.toJson` writes all of it, also what was left out.
-/

namespace GameConfig

structure ItemEntry where
  name : String
  value : Option ItemValue
  altName : Option String
  comment : Option String
deriving DecidableEq, Repr, Inhabited

structure EnumEntry where
  name : String
  flags : Bool
  comment : Option String
  items : List ItemEntry
deriving DecidableEq, Repr, Inhabited

structure FieldEntry where
  name : String
  type : String
  altName : Option String
  variants : List String
  tags : Tags
  comment : Option String
deriving DecidableEq, Repr, Inhabited

structure BeanEntry where
  name : String
  parent : Option String
  altName : Option String
  comment : Option String
  fields : List FieldEntry
deriving DecidableEq, Repr, Inhabited

structure TableEntry where
  name : String
  valueType : String
  mode : TableMode
  index : Option String
  inputFiles : List String
  comment : Option String
deriving DecidableEq, Repr

structure Descriptor where
  enums : List EnumEntry
  beans : List BeanEntry
  tables : List TableEntry
deriving DecidableEq, Repr, Inhabited

def ItemEntry.toJson (i : ItemEntry) : Json :=
  .object [
    ("name", .string i.name),
    ("value", match i.value with
      | some v => v.toJson
      | none => .null),
    ("alias", .ofString? i.altName),
    ("comment", .ofString? i.comment)]

def EnumEntry.toJson (e : EnumEntry) : Json :=
  .object [
    ("name", .string e.name),
    ("flags", .bool e.flags),
    ("comment", .ofString? e.comment),
    ("items", .array (e.items.map ItemEntry.toJson))]

def FieldEntry.toJson (f : FieldEntry) : Json :=
  .object [
    ("name", .string f.name),
    ("type", .string f.type),
    ("alias", .ofString? f.altName),
    ("variants", .array (f.variants.map .string)),
    ("tags", .object (f.tags.map fun (k, v) => (k, .string v))),
    ("comment", .ofString? f.comment)]

def BeanEntry.toJson (b : BeanEntry) : Json :=
  .object [
    ("name", .string b.name),
    ("parent", .ofString? b.parent),
    ("alias", .ofString? b.altName),
    ("comment", .ofString? b.comment),
    ("fields", .array (b.fields.map FieldEntry.toJson))]

def TableEntry.toJson (t : TableEntry) : Json :=
  .object [
    ("name", .string t.name),
    ("valueType", .string t.valueType),
    ("mode", .string t.mode.name),
    ("index", .ofString? t.index),
    ("inputFiles", .array (t.inputFiles.map .string)),
    ("comment", .ofString? t.comment)]

def Descriptor.toJson (d : Descriptor) : Json :=
  .object [
    ("enums", .array (d.enums.map EnumEntry.toJson)),
    ("beans", .array (d.beans.map BeanEntry.toJson)),
    ("tables", .array (d.tables.map TableEntry.toJson))]

end GameConfig
