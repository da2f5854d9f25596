import GameConfig.Json.Printer
import GameConfig.Schema.Error
import GameConfig.Text.Quoted

/-
  The wording of schema errors.
-/

namespace GameConfig

/-- What was found, for a message. -/
def Found.message : Found → String
  | null => "null"
  | bool b => if b then "boolean `true`" else "boolean `false`"
  | number (.int i) => "integer `" ++ integerText i ++ "`"
  | number (.double x) => "floating point `" ++ x.jsonText ++ "`"
  | string s => "string " ++ Text.quoted s
  | sequence => "sequence"
  | map => "map"

/-- The names that were expected. -/
def oneOf (names : List String) : String :=
  match names with
  | [] => "there are no fields"
  | [a] => s!"expected `{a}`"
  | [a, b] => s!"expected `{a}` or `{b}`"
  | many => "expected one of " ++ ", ".intercalate (many.map fun n => s!"`{n}`")

def DescriptorFault.message : DescriptorFault → String
  | text fault => fault.message
  | invalidType found expected => "invalid type: " ++ found.message ++ s!", expected {expected}"
  | missingField name => s!"missing field `{name}`"
  | duplicateField name => s!"duplicate field `{name}`"
  | unknownField name known => s!"unknown field `{name}`, " ++ oneOf known
  | unknownVariant name known => s!"unknown variant `{name}`, " ++ oneOf known
  | notSingleKey => "invalid value: map, expected map with a single key"
  | noVariant type => s!"data did not match any variant of untagged enum {type}"
  | invalidLength length expected => s!"invalid length {length}, expected {expected}"
  | invalidName name => s!"`{name}` is not a valid name"

def SchemaError.message : SchemaError → String
  | duplicateName name => s!"type `{name}` is declared more than once"
  | duplicateItem enum item => s!"enum `{enum}` declares item `{item}` more than once"
  | duplicateField bean field =>
    s!"bean `{bean}` declares field `{field}` which already exists in its hierarchy"
  | unknownType name context => s!"unknown type `{name}` referenced from {context}"
  | notBean name context => s!"`{name}` referenced from {context} must be a bean"
  | inheritanceCycle bean => s!"inheritance cycle through bean `{bean}`"
  | invalidTable table fault => s!"table `{table}`: " ++ fault.message
  | invalidType expression fault => s!"invalid type expression `{expression}`: " ++ fault.message
  | invalidRule field validator fault =>
    s!"field `{field}`: `{validator}` validator " ++ fault.message
  | unsupportedType field validator type =>
    s!"field `{field}`: `{validator}` validator does not support type `{type}`"
  | descriptor path fault => s!"schema descriptor at {path}: " ++ fault.message

end GameConfig
