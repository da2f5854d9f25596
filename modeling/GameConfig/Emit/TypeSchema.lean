import GameConfig.Rule.Compile
import GameConfig.Schema.Basic

/-
  JSON Schemas of types.

  Enums and beans are referred to by `#/definitions/` and their full name.  The
  tags of a type become keywords where the schema language has one for them, and
  a type that allows null allows it in its schema as well.

  * `Ty.schemaOf` is the schema of a type;
  * `applyTags` adds the keywords of tags;
  * `wrapNull` allows null.
-/

namespace GameConfig

namespace Json

/-- Sets a member if there is a value for it. -/
def set? (o : Json) (key : String) (value : Option Json) : Json :=
  match value with
  | some v => o.set key v
  | none => o

end Json

/-- A reference to a definition. -/
def definitionRef (fullName : String) : Json :=
  .object [("$ref", .string ("#/definitions/" ++ fullName))]

/-! ## Keywords -/

/-- The greatest size that a keyword may give. -/
def sizeLimit : Nat := 18446744073709551615

/-- The least whole size in an interval, and the greatest. -/
def wholeSizes (i : Interval Double) : Option Nat × Option Nat :=
  (i.min.map fun m => (if i.minIn then m.ceil else m.floor.plus 1).toNat sizeLimit,
    i.max.map fun m => (if i.maxIn then m.floor else m.ceil.plus (-1)).toNat sizeLimit)

/-- The keywords of a range. -/
def applyRange (argument : String) (o : Json) : Json :=
  match doubles? argument with
  | none => o
  | some i =>
    (o.set? (if i.minIn then "minimum" else "exclusiveMinimum") (i.min.map .ofDouble)).set?
      (if i.maxIn then "maximum" else "exclusiveMaximum") (i.max.map .ofDouble)

/-- The keywords for the sizes of a type whose schema is `o`. -/
def sizeKeys? (ty : Ty) (o : Json) : Option (String × String) :=
  match ty with
  | .scalar _ .string => some ("minLength", "maxLength")
  | .map _ _ _ =>
    match o.member? "type" with
    | some (.string "object") => some ("minProperties", "maxProperties")
    | _ => some ("minItems", "maxItems")
  | .seq _ _ _ => some ("minItems", "maxItems")
  | _ => none

/-- The keywords of a size. -/
def applySize (ty : Ty) (argument : String) (o : Json) : Json :=
  match doubles? argument, sizeKeys? ty o with
  | some i, some (minKey, maxKey) =>
    let (min, max) := wholeSizes i
    (o.set? minKey (min.map .ofNat)).set? maxKey (max.map .ofNat)
  | _, _ => o

/-- The keyword of a pattern: on a sequence it goes to the items. -/
def applyRegex (ty : Ty) (argument : String) (o : Json) : Json :=
  match ty with
  | .scalar _ .string => o.set "pattern" (.string argument)
  | .seq _ _ _ => o.update "items" fun items => items.set "pattern" (.string argument)
  | _ => o

/-- The values of a list for a type, if it has such lists and all of them can be read. -/
def listValues? (ty : Ty) (argument : String) : Option (List Json) :=
  let items := Rule.listed argument
  match ty with
  | .scalar _ .string => some (items.map .string)
  | .scalar _ (.integer _) => items.mapM fun i => (Numeral.readInt64? i.toList).map Json.ofInt
  | .scalar _ .float | .scalar _ .double =>
    items.mapM fun i => (Numeral.readDouble? i.toList).map Json.ofDouble
  | _ => none

/-- The keywords of one tag. -/
def applyTag (ty : Ty) (key argument : String) (o : Json) : Json :=
  match key with
  | "range" => applyRange argument o
  | "size" => applySize ty argument o
  | "regex" => applyRegex ty argument o
  | "set" => o.set? "enum" ((listValues? ty argument).map .array)
  | "ref" => o.set "x-ref" (.string argument)
  | "path" => o.set "x-path" (.string argument)
  | _ => o

/-- The keywords of all tags, one tag after the other. -/
def applyTags (ty : Ty) (tags : Tags) (o : Json) : Json :=
  tags.foldl (fun o t => applyTag ty t.1 t.2 o) o

/-! ## Types -/

/-- The schema that allows null as well. -/
def wrapNull (o : Json) : Json :=
  match o.member? "type" with
  | some (.string t) =>
    (o.set "type" (.array [.string t, .string "null"])).update "enum" fun values =>
      match values with
      | .array vs => .array (vs ++ [.null])
      | other => other
  | _ => .object [("oneOf", .array [o, .object [("type", .string "null")]])]

/-- The schema of a scalar type without its mark. -/
def Scalar.schemaOf : Scalar → Json
  | bool => .object [("type", .string "boolean")]
  | integer .byte =>
    .object [("type", .string "integer"), ("minimum", .ofInt 0), ("maximum", .ofInt 255)]
  | integer .short =>
    .object [("type", .string "integer"), ("minimum", .ofInt (-32768)), ("maximum", .ofInt 32767)]
  | integer _ => .object [("type", .string "integer")]
  | float | double => .object [("type", .string "number")]
  | string => .object [("type", .string "string")]
  | datetime => .object [("type", .string "string"), ("x-format", .string "datetime")]

/-- What is said about the type of the keys of a map. -/
def keyTypeName (s : Schema) : Ty → String
  | .scalar _ .bool => "boolean"
  | .scalar _ (.integer _) => "integer"
  | .scalar _ .float | .scalar _ .double => "number"
  | .named _ (.enum id) => (s.enum id).fullName
  | _ => "string"

/-- The pattern of the names that stand for integer keys. -/
def integerKeyPattern : String := "^-?[0-9]+$"

/-- The schema of a map in object notation. -/
def objectMapSchema (s : Schema) (key : Ty) (value : Json) : Json :=
  let o : Json := .object [
    ("type", .string "object"),
    ("additionalProperties", value),
    ("x-key-type", .string (keyTypeName s key))]
  if key.isInteger then
    o.set "propertyNames" (.object [("pattern", .string integerKeyPattern)])
  else o

/-- The schema of a map in pair notation. -/
def pairMapSchema (key value : Json) : Json :=
  .object [
    ("type", .string "array"),
    ("items", .object [
      ("type", .string "array"),
      ("items", .array [key, value]),
      ("minItems", .ofInt 2),
      ("maxItems", .ofInt 2)])]

/-- The schema of a sequence. -/
def seqSchema (kind : SeqKind) (elem : Json) : Json :=
  let o : Json := .object [("type", .string "array"), ("items", elem)]
  match kind with
  | .set => o.set "uniqueItems" (.bool true)
  | _ => o

namespace Ty

/-- The keywords of the mark on a type. -/
def finish (ty : Ty) (o : Json) : Json :=
  let o := applyTags ty ty.tags o
  if ty.nullable then wrapNull o else o

/-- The schema of a type. -/
def schemaOf (s : Schema) : Ty → Json
  | scalar m k => (scalar m k).finish k.schemaOf
  | named m (.enum id) => (named m (.enum id)).finish (definitionRef (s.enum id).fullName)
  | named m (.bean id) => (named m (.bean id)).finish (definitionRef (s.bean id).fullName)
  | seq m k e => (seq m k e).finish (seqSchema k (e.schemaOf s))
  | map m k v =>
    (map m k v).finish
      (if k.isTextKey then objectMapSchema s k (v.schemaOf s)
      else pairMapSchema (k.schemaOf s) (v.schemaOf s))

end Ty

end GameConfig
