import GameConfig.Schema.Resolve
import GameConfig.Ty.Notation

/-
  Collecting declarations.

  A builder reserves a name when it is first mentioned and gives it a number,
  so types can refer to what is declared later.  `Builder.build` resolves what
  was collected; a name that was used for two things is refused first.
-/

namespace GameConfig

/-- Declarations collected so far, by number. -/
structure Builder where
  beans : List (String × Option BeanDecl)
  enums : List (String × Option EnumDef)
  tables : List TableDecl
  names : Names
  duplicates : List String
deriving Repr

namespace Builder

def empty : Builder := ⟨[], [], [], [], []⟩

/-- Lets a name stand for a type.  A name that stands for something already is a duplicate. -/
def claim (b : Builder) (name : String) (ref : TypeRef) : Builder :=
  { b with
    names := Assoc.insert name ref b.names
    duplicates := if Assoc.has name b.names then b.duplicates ++ [name] else b.duplicates }

/-- The number of a bean, reserved if it is new. -/
def beanId (b : Builder) (name : String) : Nat × Builder :=
  match Assoc.find? name b.names with
  | some (.bean id) => (id, b)
  | _ =>
    let id := b.beans.length
    (id, { b with beans := b.beans ++ [(name, none)] }.claim name (.bean id))

/-- The number of an enum, reserved if it is new. -/
def enumId (b : Builder) (name : String) : Nat × Builder :=
  match Assoc.find? name b.names with
  | some (.enum id) => (id, b)
  | _ =>
    let id := b.enums.length
    (id, { b with enums := b.enums ++ [(name, none)] }.claim name (.enum id))

/-- Resolves a name among those reserved. -/
def findType? (b : Builder) (name : String) (space : Option String) : Option TypeRef :=
  b.names.lookup name space

/-- A declaration with this number is there. -/
def isDeclared {α : Type} (slots : List (String × Option α)) (id : Nat) : Bool :=
  match slots[id]? with
  | some (_, some _) => true
  | _ => false

/-- Declares an enum. -/
def addEnum (b : Builder) (e : EnumDef) : Nat × Builder :=
  let (id, b) := b.enumId e.fullName
  let again := isDeclared b.enums id
  (id, { b with
    enums := b.enums.modify id fun slot => (slot.1, some e)
    duplicates := if again then b.duplicates ++ [e.fullName] else b.duplicates })

/-- Declares a bean. -/
def addBean (b : Builder) (d : BeanDecl) : Nat × Builder :=
  let (id, b) := b.beanId d.fullName
  let again := isDeclared b.beans id
  (id, { b with
    beans := b.beans.modify id fun slot => (slot.1, some d)
    duplicates := if again then b.duplicates ++ [d.fullName] else b.duplicates })

/-- Declares a table. -/
def addTable (b : Builder) (t : TableDecl) : Builder := { b with tables := b.tables ++ [t] }

/-- The scope of type expressions inside a namespace. -/
def scope (b : Builder) (space context : String) : Scope :=
  ⟨fun name => b.findType? name (some space), context⟩

/-- The schema of all that was declared. -/
def build (b : Builder) : Except SchemaError Schema :=
  match b.duplicates with
  | name :: _ => .error (.duplicateName name)
  | [] => Resolve.schema b.names b.enums b.beans b.tables

end Builder

/-- The scope of type expressions over a finished schema. -/
def Schema.scope (s : Schema) (space context : String) : Scope :=
  ⟨fun name => s.findType? name (some space), context⟩

end GameConfig
