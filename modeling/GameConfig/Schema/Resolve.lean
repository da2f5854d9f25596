import GameConfig.Schema.Basic
import GameConfig.Schema.Error

/-
  From declarations to a schema.

  * `Hierarchy` computes, from the parent of every bean, the chain of its
    ancestors, its children and its descendants;
  * `resolveParents`, `firstCycle?`, `allFields` and `resolveTable` find what the
    declarations mean or what is wrong with them;
  * `Resolve.schema` does all of it in a fixed order: the first objection in that
    order is the answer.
-/

namespace GameConfig

/-! ## Hierarchy -/

namespace Hierarchy

/-- The parent of each bean, by number. -/
abbrev Parents := List (Option Nat)

def parentOf (parents : Parents) (id : Nat) : Option Nat := (parents[id]?).join

/-- A bean and its ancestors, nearest first; at most `steps` ancestors. -/
def chain (parents : Parents) : Nat → Nat → List Nat
  | 0, id => [id]
  | steps + 1, id =>
    match parentOf parents id with
    | some p => id :: chain parents steps p
    | none => [id]

/-- Walking up from the parent `cur` comes back to `start` or does not end within `steps`
    steps. -/
def cycles (parents : Parents) (start : Nat) : Nat → Option Nat → Bool
  | _, none => false
  | 0, some _ => true
  | steps + 1, some p => p == start || cycles parents start steps (parentOf parents p)

/-- The beans whose parent is `id`, in order. -/
def childrenOf (parents : Parents) (id : Nat) : List Nat :=
  (List.range parents.length).filter fun c => parentOf parents c == some id

/-- The descendants of a bean, depth first; at most `depth` generations. -/
def descendants (parents : Parents) : Nat → Nat → List Nat
  | 0, _ => []
  | depth + 1, id =>
    (childrenOf parents id).flatMap fun c => c :: descendants parents depth c

/-- A bean and its descendants, depth first. -/
def familyOf (parents : Parents) (id : Nat) : List Nat :=
  id :: descendants parents parents.length id

/-- The members of the family without children. -/
def concreteOf (parents : Parents) (id : Nat) : List Nat :=
  (familyOf parents id).filter fun c => (childrenOf parents c).isEmpty

end Hierarchy

open Hierarchy

namespace Resolve

/-- The first item whose name an earlier item has. -/
def repeatedItem? (seen : List String) : List EnumItem → Option String
  | [] => none
  | i :: items => if seen.contains i.name then some i.name else repeatedItem? (i.name :: seen) items

/-- The enums, all declared and each with distinct items. -/
def enums : List (String × Option EnumDef) → Except SchemaError (List EnumDef)
  | [] => .ok []
  | (name, none) :: _ => .error (.unknownType name "a field type")
  | (_, some e) :: rest =>
    match repeatedItem? [] e.items with
    | some item => .error (.duplicateItem e.fullName item)
    | none =>
      match enums rest with
      | .ok es => .ok (e :: es)
      | .error err => .error err

/-- The bean declarations, none missing. -/
def decls : List (String × Option BeanDecl) → Except SchemaError (List BeanDecl)
  | [] => .ok []
  | (name, none) :: _ => .error (.unknownType name "a field type")
  | (_, some d) :: rest =>
    match decls rest with
    | .ok ds => .ok (d :: ds)
    | .error err => .error err

/-- The parent that a declaration names. -/
def parent (names : Names) (d : BeanDecl) : Except SchemaError (Option Nat) :=
  match d.parent with
  | none => .ok none
  | some p =>
    match names.lookup p (some (namespaceOf d.fullName)) with
    | some (.bean id) => .ok (some id)
    | some (.enum _) => .error (.notBean p s!"bean `{d.fullName}`")
    | none => .error (.unknownType p s!"parent of bean `{d.fullName}`")

/-- The parents of all beans. -/
def parents (names : Names) : List BeanDecl → Except SchemaError Parents
  | [] => .ok []
  | d :: ds =>
    match parent names d with
    | .error err => .error err
    | .ok p =>
      match parents names ds with
      | .ok ps => .ok (p :: ps)
      | .error err => .error err

/-- The first bean, in order, from which the way up does not end. -/
def firstCycle? (parents : Parents) (ds : List BeanDecl) : Option BeanDecl :=
  (ds.zipIdx.find? fun (_, i) => cycles parents i parents.length (parentOf parents i)).map (·.1)

/-- The own fields of a bean behind those of its ancestors. -/
def addFields (bean : String) (acc : List Field) : List Field → Except SchemaError (List Field)
  | [] => .ok acc
  | f :: fs =>
    if acc.any fun g => g.name == f.name then .error (.duplicateField bean f.name)
    else addFields bean (acc ++ [f]) fs

/-- The fields along a chain of beans, the farthest ancestor first. -/
def chainFields (acc : List Field) : List BeanDecl → Except SchemaError (List Field)
  | [] => .ok acc
  | d :: ds =>
    match addFields d.fullName acc d.fields with
    | .ok acc => chainFields acc ds
    | .error err => .error err

/-- The fields of a bean, inherited ones first. -/
def allFields (parents : Parents) (ds : List BeanDecl) (id : Nat) :
    Except SchemaError (List Field) :=
  chainFields [] ((chain parents parents.length id).reverse.filterMap fun i => ds[i]?)

/-- A bean with all that follows from its place in the hierarchy. -/
def bean (parents : Parents) (ds : List BeanDecl) (d : BeanDecl) (id : Nat) :
    Except SchemaError BeanDef :=
  match allFields parents ds id with
  | .error err => .error err
  | .ok fields =>
    .ok {
      fullName := d.fullName
      altName := d.altName
      parent := parentOf parents id
      fields := d.fields
      comment := d.comment
      allFields := fields
      children := childrenOf parents id
      family := familyOf parents id
      concrete := concreteOf parents id }

/-- The beans from number `id` on. -/
def beansFrom (parents : Parents) (all : List BeanDecl) (id : Nat) :
    List BeanDecl → Except SchemaError (List BeanDef)
  | [] => .ok []
  | d :: ds =>
    match bean parents all d id with
    | .error err => .error err
    | .ok b =>
      match beansFrom parents all (id + 1) ds with
      | .ok bs => .ok (b :: bs)
      | .error err => .error err

/-- The bean that the name of a table's value type stands for. -/
def valueType (s : Schema) (t : TableDecl) : Except SchemaError Nat :=
  match s.findType? t.valueType (some (namespaceOf t.fullName)) with
  | some (.bean id) => .ok id
  | some (.enum _) => .error (.notBean t.valueType s!"table `{t.fullName}`")
  | none => .error (.unknownType t.valueType s!"table `{t.fullName}`")

/-- Values of this type can index a map table. -/
def isIndexType : Ty → Bool
  | .scalar _ _ | .named _ (.enum _) => true
  | _ => false

/-- What is wrong with the index of a table over this bean. -/
def indexFault? (b : BeanDef) (t : TableDecl) : Option TableFault :=
  match t.index with
  | none => if t.mode = .map then some .noIndex else none
  | some index =>
    match b.allFields.find? fun f => f.name == index with
    | none => some (.unknownIndex index b.fullName)
    | some f => if t.mode = .map && !isIndexType f.ty then some (.indexNotScalar index) else none

/-- A table with its value type resolved. -/
def table (s : Schema) (t : TableDecl) : Except SchemaError TableDef :=
  match valueType s t with
  | .error err => .error err
  | .ok id =>
    match indexFault? (s.bean id) t with
    | some fault => .error (.invalidTable t.fullName fault)
    | none =>
      .ok {
        fullName := t.fullName
        valueType := id
        mode := t.mode
        index := t.index
        inputFiles := t.inputFiles
        comment := t.comment }

/-- The tables, in order. -/
def tables (s : Schema) : List TableDecl → Except SchemaError (List TableDef)
  | [] => .ok []
  | t :: ts =>
    match table s t with
    | .error err => .error err
    | .ok t =>
      match tables s ts with
      | .ok ts => .ok (t :: ts)
      | .error err => .error err

/-- The beans of a schema: parents first, then cycles, then fields. -/
def beans (names : Names) (ds : List BeanDecl) : Except SchemaError (List BeanDef) :=
  match parents names ds with
  | .error err => .error err
  | .ok ps =>
    match firstCycle? ps ds with
    | some d => .error (.inheritanceCycle d.fullName)
    | none => beansFrom ps ds 0 ds

/-- The schema of all declarations. -/
def schema (names : Names) (es : List (String × Option EnumDef))
    (bs : List (String × Option BeanDecl)) (ts : List TableDecl) : Except SchemaError Schema :=
  match enums es with
  | .error err => .error err
  | .ok es =>
    match decls bs with
    | .error err => .error err
    | .ok ds =>
      match beans names ds with
      | .error err => .error err
      | .ok bs =>
        let s : Schema := ⟨bs, es, [], names⟩
        match tables s ts with
        | .error err => .error err
        | .ok ts => .ok { s with tables := ts }

end Resolve

end GameConfig
