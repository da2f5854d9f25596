import GameConfig.Emit.Basic
import GameConfig.Emit.TypeSchema
import GameConfig.Json.Printer
import GameConfig.Options

/-
  The JSON Schema of the data files.

  Every enum and every bean is a definition under its full name.  A bean that
  others inherit from is a choice among its concrete descendants by the
  discriminator.  With file variants, a bean whose records stand in files of
  their own has a second definition for them, without the discriminator, and
  each table has a small schema that refers to it.

  * `JsonSchemaOptions.document` is the whole schema;
  * `JsonSchemaOptions.files` are the files to write.
-/

namespace GameConfig

/-- What is behind the name of a bean in the name of its definition for files. -/
def dataFileSuffix : String := "DataFile"

/-- Adds the description, if there is one. -/
def describe (comment : Option String) (o : Json) : Json :=
  o.set? "description" ((shownText comment).map .string)

/-! ## Enums -/

def EnumItem.schemaOf (i : EnumItem) : Json :=
  ((Json.object [("name", .string i.name), ("value", i.value.toJson)]).set? "alias"
    (i.altName.map .string)).set? "comment" ((shownText i.comment).map .string)

/-- The definition of an enum: the names and aliases of its items are its values. -/
def EnumDef.schemaOf (e : EnumDef) : Json :=
  let o : Json := .object [
    ("type", .string "string"),
    ("enum", .array (e.items.flatMap fun i => (i.name :: i.altName.toList).map .string)),
    ("x-enum", .string e.fullName),
    ("x-enum-values", .array (e.items.map fun i => i.value.toJson)),
    ("x-enum-items", .array (e.items.map EnumItem.schemaOf))]
  describe e.comment (if e.isFlags then o.set "x-flags" (.bool true) else o)

/-! ## Beans -/

/-- The schema of a field: its type, the keywords of its own tags and its comment. -/
def Field.schemaOf (s : Schema) (f : Field) : Json :=
  describe f.comment (applyTags f.ty f.tags (f.ty.schemaOf s))

/-- The keys that a field may stand under besides its name: its variants, then its alias. -/
def Field.otherKeys (f : Field) : List String := f.variants.map f.storedAs ++ f.altName.toList

/-- All keys that a field may stand under, its name first. -/
def Field.keys (f : Field) : List String := f.name :: f.otherKeys

/-- Puts a field among the properties, under its other keys and then under its name. -/
def addProperty (s : Schema) (properties : Assoc Json) (f : Field) : Assoc Json :=
  let o := f.schemaOf s
  Assoc.insert f.name o (f.otherKeys.foldl (fun ps key => Assoc.insert key o ps) properties)

/-- The names of the fields that must be there under their name. -/
def requiredNames (fields : List Field) : List String :=
  (fields.filter fun f => !f.ty.nullable && f.otherKeys.isEmpty).map (·.name)

/-- For each field that must be there under one of several keys, the choice among them. -/
def requiredChoices (fields : List Field) : List Json :=
  (fields.filter fun f => !f.ty.nullable && !f.otherKeys.isEmpty).map fun f =>
    .object [("anyOf", .array (f.keys.map fun k => .object [("required", .array [.string k])]))]

/-- A list, unless it is empty. -/
def arrayUnlessEmpty (items : List Json) : Option Json :=
  if items.isEmpty then none else some (.array items)

/-- The schema of an object with some properties before those of its fields. -/
def objectSchema (s : Schema) (properties : Assoc Json) (required : List String)
    (fields : List Field) (comment : Option String) : Json :=
  let o : Json := .object [
    ("type", .string "object"),
    ("properties", .object (fields.foldl (addProperty s) properties))]
  let names := (required ++ requiredNames fields).map Json.string
  let o := (o.set? "required" (arrayUnlessEmpty names)).set? "allOf"
    (arrayUnlessEmpty (requiredChoices fields))
  describe comment (o.set "additionalProperties" (.bool false))

/-- The schema of a value that is a given text. -/
def constSchema (text : String) : Json := .object [("const", .string text)]

/-- The definition of a bean that nothing inherits from. -/
def BeanDef.concreteSchema (s : Schema) (b : BeanDef) : Json :=
  if b.parent.isSome then
    objectSchema s [(typeKey, constSchema (s.discriminator b))] [typeKey] b.allFields b.comment
  else objectSchema s [] [] b.allFields b.comment

/-- What holds for a record whose discriminator names this bean. -/
def BeanDef.armSchema (s : Schema) (b : BeanDef) : Json :=
  .object [
    ("if", .object [
      ("properties", .object [(typeKey, constSchema (s.discriminator b))]),
      ("required", .array [.string typeKey])]),
    ("then", definitionRef b.fullName)]

/-- The definition of a bean that others inherit from. -/
def BeanDef.abstractSchema (s : Schema) (b : BeanDef) : Json :=
  let concrete := b.concrete.map s.bean
  describe b.comment (.object [
    ("type", .string "object"),
    ("properties", .object [
      (typeKey, .object [
        ("type", .string "string"),
        ("enum", .array (concrete.map fun c => .string (s.discriminator c))),
        ("description", .string ("Type discriminator for " ++ b.name))])]),
    ("required", .array [.string typeKey]),
    ("allOf", .array (concrete.map (BeanDef.armSchema s))),
    ("discriminator", .object [("propertyName", .string typeKey)])])

/-- The definition of a bean. -/
def BeanDef.schemaOf (s : Schema) (b : BeanDef) : Json :=
  if b.isAbstract then b.abstractSchema s else b.concreteSchema s

/-- The definition of a bean for records in files of their own: no discriminator, but a member
    that names the schema of the file. -/
def BeanDef.fileSchema (s : Schema) (b : BeanDef) : Json :=
  objectSchema s
    [("$schema", .object [
      ("type", .string "string"),
      ("description", .string "JSON Schema reference for editor support")])]
    [] b.allFields (some ("Standalone file variant of " ++ b.name))

/-- The name of the definition of a bean for files. -/
def BeanDef.dataFileName (b : BeanDef) : String := b.fullName ++ dataFileSuffix

/-! ## Tables and documents -/

/-- What the document says about a table. -/
def TableDef.schemaOf (s : Schema) (t : TableDef) : Json :=
  let o : Json := .object [
    ("valueType", .string (s.bean t.valueType).fullName), ("mode", .string t.mode.name)]
  ((o.set? "index" (t.index.map .string)).set? "inputFiles"
    (arrayUnlessEmpty (t.inputFiles.map .string))).set? "comment"
    ((shownText t.comment).map .string)

/-- Some table holds records of the bean. -/
def Schema.hasTableOf (s : Schema) (id : Nat) : Bool := s.tables.any fun t => t.valueType == id

/-- The beans that get a definition for files on account of a bean. -/
def fileVariants (s : Schema) (id : Nat) (b : BeanDef) : List Nat :=
  if b.isAbstract then b.concrete
  else if b.parent.isSome || s.hasTableOf id then [id]
  else []

/-- The definitions that a bean brings along, in order. -/
def beanDefinitions (s : Schema) (variants : Bool) (id : Nat) (b : BeanDef) :
    List (String × Json) :=
  let choice : Json := .object [("anyOf", .array (b.concrete.map fun c =>
    definitionRef (s.bean c).dataFileName))]
  (b.fullName, b.schemaOf s) ::
    if variants then
      (fileVariants s id b).map (fun v => ((s.bean v).dataFileName, (s.bean v).fileSchema s)) ++
        if b.isAbstract && s.hasTableOf id then [(b.dataFileName, choice)] else []
    else []

/-- All definitions, in order; one of a name that was there before takes its place. -/
def definitions (s : Schema) (variants : Bool) : List (String × Json) :=
  (s.enums.map fun e => (e.fullName, e.schemaOf)) ++
    (List.range s.beans.length).flatMap fun id => beanDefinitions s variants id (s.bean id)

namespace JsonSchemaOptions

/-- The whole schema. -/
def document (o : JsonSchemaOptions) (s : Schema) : Json :=
  .object [
    ("$schema", .string o.draft),
    ("$id", .string o.schemaId),
    ("definitions", .object (Assoc.ofEntries (definitions s o.fileVariants))),
    ("tables", .object (Assoc.ofEntries (s.tables.map fun t => (t.fullName, t.schemaOf s))))]

/-- The schema for the data files of a table. -/
def tableSchema (o : JsonSchemaOptions) (s : Schema) (t : TableDef) : Json :=
  .object [
    ("$schema", .string o.draft),
    ("$ref", .string
      ("../" ++ o.outputFile ++ "#/definitions/" ++ (s.bean t.valueType).dataFileName))]

/-- The file with the schema for the data files of a table. -/
def tableFile (o : JsonSchemaOptions) (s : Schema) (t : TableDef) : OutputFile :=
  ⟨"definitions/" ++ kebabCase (s.bean t.valueType).name ++ ".schema.json",
    (o.tableSchema s t).pretty⟩

/-- The files to write, the whole schema first. -/
def files (o : JsonSchemaOptions) (s : Schema) : List OutputFile :=
  ⟨o.outputFile, (o.document s).pretty⟩ ::
    if o.fileVariants then s.tables.map (o.tableFile s) else []

end JsonSchemaOptions

end GameConfig
