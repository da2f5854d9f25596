import GameConfig.Descriptor.Basic
import GameConfig.Json.Decode
import GameConfig.Text.Utf8

/-
  Reading descriptors.

  A descriptor comes as a JSON value, as text or as bytes.  Of a text the first
  value is read and what follows it is left alone.  Members that a shape does
  not know are refused.
-/

namespace GameConfig

open Decode

/-- A value of an enum item: an integer of 64 bits or a text.  The whole value is read before
    it is judged. -/
def ItemValue.decode (d : Document) : Result ItemValue :=
  match sound d with
  | .error m => .error m
  | .ok () =>
    match d with
    | .number (.int i) =>
      if Numeral.fitsInt64 i then .ok (.int i) else here (.noVariant "ItemValueSource")
    | .string s => .ok (.text s)
    | _ => here (.noVariant "ItemValueSource")

def ItemEntry.shape : Shape ItemEntry where
  name := "EnumItemSource"
  closed := true
  blank := default
  members := [
    .of "name" true text fun a i => { i with name := a },
    .of "value" false (optional ItemValue.decode) fun a i => { i with value := a },
    .of "alias" false (optional text) fun a i => { i with altName := a },
    .of "comment" false (optional text) fun a i => { i with comment := a }]

def EnumEntry.shape (origin : Origin) : Shape EnumEntry where
  name := "EnumSource"
  closed := true
  blank := default
  members := [
    .of "name" true text fun a e => { e with name := a },
    .of "flags" false flag fun a e => { e with flags := a },
    .of "comment" false (optional text) fun a e => { e with comment := a },
    .of "items" true (list (ItemEntry.shape.read origin)) fun a e => { e with items := a }]

def FieldEntry.shape : Shape FieldEntry where
  name := "FieldSource"
  closed := true
  blank := default
  members := [
    .of "name" true text fun a f => { f with name := a },
    .of "type" true text fun a f => { f with type := a },
    .of "alias" false (optional text) fun a f => { f with altName := a },
    .of "variants" false (list text) fun a f => { f with variants := a },
    .of "tags" false (dictionary text) fun a f => { f with tags := a },
    .of "comment" false (optional text) fun a f => { f with comment := a }]

def BeanEntry.shape (origin : Origin) : Shape BeanEntry where
  name := "BeanSource"
  closed := true
  blank := default
  members := [
    .of "name" true text fun a b => { b with name := a },
    .of "parent" false (optional text) fun a b => { b with parent := a },
    .of "alias" false (optional text) fun a b => { b with altName := a },
    .of "comment" false (optional text) fun a b => { b with comment := a },
    .of "fields" false (list (FieldEntry.shape.read origin)) fun a b => { b with fields := a }]

def TableMode.decode (origin : Origin) : Document → Result TableMode :=
  choice origin (TableMode.all.map TableMode.name) TableMode.ofName?

/-- A table is a map unless it says otherwise. -/
def TableEntry.shape (origin : Origin) : Shape TableEntry where
  name := "TableSource"
  closed := true
  blank := ⟨"", "", .map, none, [], none⟩
  members := [
    .of "name" true text fun a t => { t with name := a },
    .of "valueType" true text fun a t => { t with valueType := a },
    .of "mode" false (TableMode.decode origin) fun a t => { t with mode := a },
    .of "index" false (optional text) fun a t => { t with index := a },
    .of "inputFiles" false (list text) fun a t => { t with inputFiles := a },
    .of "comment" false (optional text) fun a t => { t with comment := a }]

namespace Descriptor

def shape (origin : Origin) : Shape Descriptor where
  name := "SchemaSource"
  closed := true
  blank := default
  members := [
    .of "enums" false (list ((EnumEntry.shape origin).read origin)) fun a d =>
      { d with enums := a },
    .of "beans" false (list ((BeanEntry.shape origin).read origin)) fun a d =>
      { d with beans := a },
    .of "tables" false (list ((TableEntry.shape origin).read origin)) fun a d =>
      { d with tables := a }]

/-- Reads a document as a descriptor. -/
def decode (origin : Origin) (d : Document) : Except SchemaError Descriptor :=
  match (shape origin).read origin d with
  | .ok descriptor => .ok descriptor
  | .error m => .error m.toError

/-- The descriptor that a JSON value is. -/
def ofJson (j : Json) : Except SchemaError Descriptor := decode .value (.ofJson j)

/-- The descriptor at the start of a text. -/
def ofString (s : String) : Except SchemaError Descriptor :=
  decode .text (Document.read (Text.ofString s)).1

/-- The descriptor at the start of a text in UTF-8. -/
def ofBytes (bytes : List Nat) : Except SchemaError Descriptor :=
  decode .text (Document.read (Text.Utf8.symbols bytes)).1

end Descriptor

end GameConfig
