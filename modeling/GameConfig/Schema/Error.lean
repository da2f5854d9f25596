import GameConfig.Json.Document

/-
  What can be wrong with a schema.

  Each cause is a constructor with what it is about; the wording of all of them
  is in the `message` functions.
-/

namespace GameConfig

/-- Why a type expression is refused. -/
inductive TypeFault where
  | empty
  | unbalanced
  | noComma
  | emptyTag
  | noElement
  | noKeyAndValue
  | notContainer
  | malformedName
deriving DecidableEq, Repr

def TypeFault.message : TypeFault → String
  | empty => "empty type"
  | unbalanced => "unbalanced parentheses"
  | noComma => "expected `,` after `)`"
  | emptyTag => "empty tag name"
  | noElement => "container is missing its element type"
  | noKeyAndValue => "map needs a key and a value type"
  | notContainer => "only containers take element types"
  | malformedName => "malformed type name"

/-- Why a table is refused. -/
inductive TableFault where
  | noIndex
  | unknownIndex (index bean : String)
  | indexNotScalar (index : String)
deriving DecidableEq, Repr

def TableFault.message : TableFault → String
  | noIndex => "map tables require an index field"
  | unknownIndex index bean => s!"index field `{index}` does not exist in `{bean}`"
  | indexNotScalar index => s!"index field `{index}` must be a scalar or enum"

/-- Why the argument of a validator is refused. -/
inductive RuleFault where
  | emptyBase
  | malformedInterval (argument : String)
  | malformedSize (argument : String)
  | malformedPattern
  | noValues
  | badValue (item type : String)
deriving DecidableEq, Repr

def RuleFault.message : RuleFault → String
  | emptyBase => "base bean name is empty"
  | malformedInterval argument => s!"malformed interval '{argument}'"
  | malformedSize argument => s!"malformed size '{argument}'"
  | malformedPattern => "malformed pattern"
  | noValues => "no allowed values"
  | badValue item type => s!"'{item}' is not a valid {type}"

/-- What stands where something else is expected in a descriptor. -/
inductive Found where
  | null
  | bool (value : Bool)
  | number (value : Json.Number)
  | string (value : String)
  | sequence
  | map
deriving DecidableEq, Repr

/-- Why a descriptor is refused at one place. -/
inductive DescriptorFault where
  | text (fault : Fault)
  | invalidType (found : Found) (expected : String)
  | missingField (name : String)
  | duplicateField (name : String)
  | unknownField (name : String) (known : List String)
  | unknownVariant (name : String) (known : List String)
  | notSingleKey
  | noVariant (type : String)
  | invalidLength (length : Nat) (expected : String)
  | invalidName (name : String)
deriving DecidableEq, Repr

/-- What is wrong with a schema. -/
inductive SchemaError where
  | duplicateName (name : String)
  | duplicateItem (enum item : String)
  | duplicateField (bean field : String)
  | unknownType (name context : String)
  | notBean (name context : String)
  | inheritanceCycle (bean : String)
  | invalidTable (table : String) (fault : TableFault)
  | invalidType (expression : String) (fault : TypeFault)
  | invalidRule (field validator : String) (fault : RuleFault)
  | unsupportedType (field validator type : String)
  | descriptor (path : String) (fault : DescriptorFault)
deriving DecidableEq, Repr

end GameConfig
