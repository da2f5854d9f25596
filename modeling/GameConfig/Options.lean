import GameConfig.Json.Decode

/-
  Options for loading and for the generated files.

  Every option may be left out; members that are not known are passed over.
-/

namespace GameConfig

structure JsonSchemaOptions where
  schemaId : String
  draft : String
  outputFile : String
  /-- Schemas for standalone data files and per table are generated too. -/
  fileVariants : Bool
deriving DecidableEq, Repr

def JsonSchemaOptions.standard : JsonSchemaOptions where
  schemaId := "beanforge-schema"
  draft := "http://json-schema.org/draft-07/schema#"
  outputFile := "schema.json"
  fileVariants := true

structure LuaOptions where
  outputFile : String
  /-- The field tag that makes collection readers construct elements through a factory. -/
  factoryTag : String
deriving DecidableEq, Repr

def LuaOptions.standard : LuaOptions where
  outputFile := "schema.lua"
  factoryTag := "ObjectFactory"

structure Options where
  /-- The active variant: fields that declare it are read from `name@variant` first. -/
  variant : Option String
  jsonSchema : JsonSchemaOptions
  lua : LuaOptions
deriving DecidableEq, Repr

def Options.standard : Options := ⟨none, .standard, .standard⟩

/-! ## Reading and writing -/

open Decode

def JsonSchemaOptions.shape : Shape JsonSchemaOptions where
  name := "JsonSchemaOptions"
  closed := false
  blank := .standard
  members := [
    .of "schemaId" false text fun a o => { o with schemaId := a },
    .of "draft" false text fun a o => { o with draft := a },
    .of "outputFile" false text fun a o => { o with outputFile := a },
    .of "generateFileVariants" false flag fun a o => { o with fileVariants := a }]

def LuaOptions.shape : Shape LuaOptions where
  name := "LuaOptions"
  closed := false
  blank := .standard
  members := [
    .of "outputFile" false text fun a o => { o with outputFile := a },
    .of "objectFactoryTag" false text fun a o => { o with factoryTag := a }]

def Options.shape : Shape Options where
  name := "GenOptions"
  closed := false
  blank := .standard
  members := [
    .of "variant" false (optional text) fun a o => { o with variant := a },
    .of "jsonSchema" false (JsonSchemaOptions.shape.read .value) fun a o =>
      { o with jsonSchema := a },
    .of "lua" false (LuaOptions.shape.read .value) fun a o => { o with lua := a }]

/-- Reads options from a JSON value. -/
def Options.ofJson (j : Json) : Except SchemaError Options :=
  match Options.shape.read .value (.ofJson j) with
  | .ok o => .ok o
  | .error m => .error m.toError

def JsonSchemaOptions.toJson (o : JsonSchemaOptions) : Json :=
  .object [
    ("schemaId", .string o.schemaId),
    ("draft", .string o.draft),
    ("outputFile", .string o.outputFile),
    ("generateFileVariants", .bool o.fileVariants)]

def LuaOptions.toJson (o : LuaOptions) : Json :=
  .object [("outputFile", .string o.outputFile), ("objectFactoryTag", .string o.factoryTag)]

def Options.toJson (o : Options) : Json :=
  .object [
    ("variant", .ofString? o.variant),
    ("jsonSchema", o.jsonSchema.toJson),
    ("lua", o.lua.toJson)]

end GameConfig
