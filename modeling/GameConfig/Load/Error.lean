import GameConfig.Json.Printer
import GameConfig.Number.Printer

/-
  What can be wrong with raw data, and where.

  A `LoadError` holds the steps from the root of a record down to the place,
  the outermost first, and what is wrong there.
-/

namespace GameConfig

/-- A step from a record down to a part of it. -/
inductive Frame where
  | field (bean field : String)
  | index (i : Nat)
  | key (name : String)
deriving DecidableEq, Repr

def Frame.text : Frame → String
  | field _ f => "." ++ f
  | index i => s!"[{i}]"
  | key k => s!"[{k}]"

/-- Why a node is not a map. -/
inductive MapFault where
  | notPair (entry : String)
  | keyNotText
  | keyTypeNotText (type : String)
  | notMap (found : String)
deriving DecidableEq, Repr

def MapFault.message : MapFault → String
  | notPair entry => s!"entry {entry} must be a [key, value] pair"
  | keyNotText => "object notation requires a string-compatible key type"
  | keyTypeNotText type =>
    s!"object notation requires a string-compatible key type, found `{type}`; " ++
      "use [[key, value], ...]"
  | notMap found => s!"expected [[key, value], ...] or an object, found {found}"

/-- What is wrong with a node of raw data. -/
inductive LoadFault where
  | malformedScalar (expected found : String)
  | unexpectedNode (expected found : String)
  | unknownItem (enum value : String)
  | missingDiscriminator (bean : String)
  | unknownSubtype (bean name : String)
  | nullField (bean field : String)
  | missingField (bean field : String)
  | invalidMap (fault : MapFault)
  | duplicateKey (key : String)
  | malformedDateTime (value : String)
deriving DecidableEq, Repr

def LoadFault.message : LoadFault → String
  | malformedScalar expected found => s!"expected {expected}, found {found}"
  | unexpectedNode expected found => s!"expected {expected}, found {found}"
  | unknownItem enum value => s!"`{value}` is not an item of enum `{enum}`"
  | missingDiscriminator bean =>
    s!"polymorphic bean `{bean}` requires a `$type` discriminator naming a subtype"
  | unknownSubtype bean name => s!"`{name}` is not a concrete subtype of `{bean}`"
  | nullField bean field => s!"field `{field}` of `{bean}` must not be null"
  | missingField bean field => s!"field `{field}` of `{bean}` is missing"
  | invalidMap fault => "invalid map encoding: " ++ fault.message
  | duplicateKey key => s!"duplicate map key {key}"
  | malformedDateTime value => s!"`{value}` is not a valid datetime"

structure LoadError where
  fault : LoadFault
  path : List Frame
deriving DecidableEq, Repr

namespace LoadError

def of (fault : LoadFault) : LoadError := ⟨fault, []⟩

/-- The error seen from one step farther out. -/
def within (e : LoadError) (f : Frame) : LoadError := ⟨e.fault, f :: e.path⟩

/-- The path as text, such as `$.reward.items[2].count`. -/
def pathText (e : LoadError) : String := "$" ++ String.join (e.path.map Frame.text)

def message (e : LoadError) : String := e.pathText ++ ": " ++ e.fault.message

end LoadError

/-- A raw node, for messages: scalars with their JSON text. -/
def Json.describe : Json → String
  | .null => "null"
  | .bool b => "bool `" ++ (Json.bool b).compact ++ "`"
  | .number n => "number `" ++ (Json.number n).compact ++ "`"
  | .string s => "string `" ++ (Json.string s).compact ++ "`"
  | .array _ => "array"
  | .object _ => "object"

end GameConfig
