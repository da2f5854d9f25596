import GameConfig.Json.Basic
import GameConfig.Text.Cut
import GameConfig.Ty.Basic

/-
  Schemas: enums, beans and tables.

  A bean is a record type; it inherits the fields of its parent.  Beans and
  enums are numbered in the order in which their names were first mentioned
  and refer to one another by number.

  * `Schema.findType?` resolves a name: as it stands, then inside a namespace;
  * `Schema.subtype?` resolves what data gives as the type of a bean, and
    `Schema.discriminator` is what is written there;
  * `Schema.isAssignable` follows parents.
-/

namespace GameConfig

/-- The namespace and the simple name of a full name. -/
def splitFullName (fullName : String) : String × String :=
  match Text.cutLast '.' fullName.toList with
  | some (space, name) => (String.ofList space, String.ofList name)
  | none => ("", fullName)

/-- The part behind the last dot. -/
def simpleName (fullName : String) : String := (splitFullName fullName).2

/-- The part before the last dot. -/
def namespaceOf (fullName : String) : String := (splitFullName fullName).1

/-- The member of data that names the type of a bean. -/
def typeKey : String := "$type"

/-- The member that may name it when `typeKey` is absent. -/
def fallbackTypeKey : String := "__type__"

/-! ## Enums -/

/-- The value of an enum item. -/
inductive ItemValue where
  | int (value : Int)
  | text (value : String)
deriving DecidableEq, Repr

/-- The value as it is written in JSON. -/
def ItemValue.toJson : ItemValue → Json
  | int v => .ofInt v
  | text s => .string s

structure EnumItem where
  name : String
  value : ItemValue
  altName : Option String
  comment : Option String
deriving DecidableEq, Repr

structure EnumDef where
  fullName : String
  items : List EnumItem
  isFlags : Bool
  comment : Option String
deriving DecidableEq, Repr, Inhabited

namespace EnumDef

def name (e : EnumDef) : String := simpleName e.fullName

/-- Some item has a text as its value. -/
def isText (e : EnumDef) : Bool :=
  e.items.any fun i => match i.value with
    | .text _ => true
    | .int _ => false

/-- The position of the item with this name, else of the first with this alias. -/
def findItem? (e : EnumDef) (word : String) : Option Nat :=
  match e.items.findIdx? fun i => i.name == word with
  | some i => some i
  | none => e.items.findIdx? fun i => i.altName == some word

/-- The name of the item at a position. -/
def itemName (e : EnumDef) (i : Nat) : String :=
  match e.items[i]? with
  | some item => item.name
  | none => ""

end EnumDef

/-! ## Beans -/

structure Field where
  name : String
  altName : Option String
  /-- The variants under which the field is stored as `name@variant`. -/
  variants : List String
  ty : Ty
  /-- Annotations of the value as a whole. -/
  tags : Tags
  comment : Option String
deriving DecidableEq, Repr

namespace Field

def hasTag (f : Field) (key : String) : Bool := Assoc.has key f.tags

/-- The key under which a variant of the field is stored. -/
def storedAs (f : Field) (variant : String) : String := f.name ++ "@" ++ variant

/-- The key of the field when a variant is active. -/
def variantKey? (f : Field) (variant : String) : Option String :=
  if f.variants.contains variant then some (f.storedAs variant) else none

end Field

/-- A bean as declared. -/
structure BeanDecl where
  fullName : String
  parent : Option String
  altName : Option String
  fields : List Field
  comment : Option String
deriving DecidableEq, Repr

/-- A bean of a schema, with all that follows from its place in the hierarchy. -/
structure BeanDef where
  fullName : String
  altName : Option String
  parent : Option Nat
  /-- The bean's own fields. -/
  fields : List Field
  comment : Option String
  /-- The fields of its ancestors, the farthest first, then its own. -/
  allFields : List Field
  children : List Nat
  /-- The bean itself and its descendants, depth first. -/
  family : List Nat
  /-- The members of the family without children. -/
  concrete : List Nat
deriving DecidableEq, Repr, Inhabited

namespace BeanDef

def name (b : BeanDef) : String := simpleName b.fullName

def space (b : BeanDef) : String := namespaceOf b.fullName

/-- Some bean inherits from it. -/
def isAbstract (b : BeanDef) : Bool := !b.children.isEmpty

/-- The position of a field among all fields. -/
def fieldIndex? (b : BeanDef) (name : String) : Option Nat :=
  b.allFields.findIdx? fun f => f.name == name

end BeanDef

/-! ## Tables -/

/-- How the records of a table are kept. -/
inductive TableMode where
  | map
  | list
  | one
  | singleton
  | single
  | array
deriving DecidableEq, Repr

namespace TableMode

def all : List TableMode := [map, list, one, singleton, single, array]

def name : TableMode → String
  | map => "map"
  | list => "list"
  | one => "one"
  | singleton => "singleton"
  | single => "single"
  | array => "array"

/-- The table holds exactly one record. -/
def isSingle : TableMode → Bool
  | one | singleton | single => true
  | _ => false

def ofName? (name : String) : Option TableMode := all.find? fun m => m.name == name

end TableMode

/-- A table as declared. -/
structure TableDecl where
  fullName : String
  valueType : String
  mode : TableMode
  index : Option String
  inputFiles : List String
  comment : Option String
deriving DecidableEq, Repr

structure TableDef where
  fullName : String
  valueType : Nat
  mode : TableMode
  index : Option String
  inputFiles : List String
  comment : Option String
deriving DecidableEq, Repr

def TableDef.name (t : TableDef) : String := simpleName t.fullName

/-! ## Schemas -/

/-- The number that each type name stands for. -/
abbrev Names := Assoc TypeRef

/-- A name as it stands, else inside a namespace. -/
def Names.lookup (names : Names) (name : String) (space : Option String) : Option TypeRef :=
  match Assoc.find? name names with
  | some ref => some ref
  | none =>
    match space with
    | some s => if s.isEmpty then none else Assoc.find? (s ++ "." ++ name) names
    | none => none

structure Schema where
  beans : List BeanDef
  enums : List EnumDef
  tables : List TableDef
  names : Names
deriving Repr

namespace Schema

def empty : Schema := ⟨[], [], [], []⟩

/-- The bean with a number; the references of a schema stay inside it. -/
def bean (s : Schema) (id : Nat) : BeanDef := s.beans.getD id default

/-- The enum with a number; the references of a schema stay inside it. -/
def enum (s : Schema) (id : Nat) : EnumDef := s.enums.getD id default

def table? (s : Schema) (fullName : String) : Option TableDef :=
  s.tables.find? fun t => t.fullName == fullName

/-- A name as it stands, else inside a namespace. -/
def findType? (s : Schema) (name : String) (space : Option String) : Option TypeRef :=
  s.names.lookup name space

def beanByName? (s : Schema) (name : String) : Option Nat :=
  match s.findType? name none with
  | some (.bean id) => some id
  | _ => none

def enumByName? (s : Schema) (name : String) : Option Nat :=
  match s.findType? name none with
  | some (.enum id) => some id
  | _ => none

/-- The concrete member of a bean's family that data calls by this word: its full name, else
    its simple name, else its alias. -/
def subtype? (s : Schema) (base : Nat) (word : String) : Option Nat :=
  let find (p : BeanDef → Bool) := (s.bean base).concrete.find? fun id => p (s.bean id)
  match find fun b => b.fullName == word with
  | some id => some id
  | none =>
    match find fun b => b.name == word with
    | some id => some id
    | none => find fun b => b.altName == some word

/-- The bean at the end of a chain of at most `steps` parents. -/
def rootFrom (s : Schema) : Nat → BeanDef → BeanDef
  | 0, b => b
  | steps + 1, b =>
    match b.parent with
    | some p => s.rootFrom steps (s.bean p)
    | none => b

/-- The topmost ancestor of a bean. -/
def root (s : Schema) (b : BeanDef) : BeanDef := s.rootFrom s.beans.length b

/-- What is written as the type of a bean: its simple name, unless another concrete bean of the
    hierarchy has it too; then its full name. -/
def discriminator (s : Schema) (b : BeanDef) : String :=
  let clash := (s.root b).concrete.any fun id =>
    let other := s.bean id
    other.fullName != b.fullName && other.name == b.name
  if clash then b.fullName else b.name

/-- `base` is reached from `other` by at most `steps` parents. -/
def reaches (s : Schema) (base : Nat) : Nat → Nat → Bool
  | 0, other => other == base
  | steps + 1, other =>
    other == base || match (s.bean other).parent with
      | some p => s.reaches base steps p
      | none => false

/-- `other` is `base` or one of its descendants. -/
def isAssignable (s : Schema) (base other : Nat) : Bool := s.reaches base s.beans.length other

end Schema

end GameConfig
