import GameConfig.Datum.Basic
import GameConfig.DateTime.Reader
import GameConfig.Json.Document
import GameConfig.Load.Error
import GameConfig.Ty.Name

/-
  Raw JSON as typed values.

  How a node loads as a type depends on how its parts load, and a type never
  asks for more than the parts of the node.  So a `Node` joins a raw node with
  the function that loads it and with its parts as nodes; `Loader.node` builds
  it from the leaves up, and `Loader.load` asks it for a type.

  * `loadAs` is one step: a node, given its parts, as a type;
  * `loadRecord` loads a node as a bean: it finds the concrete bean, then its
    fields in order;
  * `loadPairs` and `loadMembers` load the two notations of maps.
-/

namespace GameConfig

/-- A raw node, how it loads as any type, and its parts. -/
inductive Node where
  | mk (raw : Json) (load : Ty → Except LoadError Datum) (items : List Node)
      (members : List (String × Node))

namespace Node

def raw : Node → Json
  | mk r _ _ _ => r

def load : Node → Ty → Except LoadError Datum
  | mk _ l _ _ => l

def items : Node → List Node
  | mk _ _ is _ => is

def members : Node → List (String × Node)
  | mk _ _ _ ms => ms

end Node

/-- What loading depends on: the schema and the active variant. -/
structure Loader where
  schema : Schema
  variant : Option String

namespace Loader

def fail {α : Type} (fault : LoadFault) : Except LoadError α := .error (.of fault)

/-- An error of a part, seen from the whole. -/
def within {α : Type} (f : Frame) : Except LoadError α → Except LoadError α
  | .ok a => .ok a
  | .error e => .error (e.within f)

def malformed {α : Type} (expected : String) (raw : Json) : Except LoadError α :=
  fail (.malformedScalar expected raw.describe)

def unexpected {α : Type} (expected : String) (raw : Json) : Except LoadError α :=
  fail (.unexpectedNode expected raw.describe)

/-! ## Scalars and enums -/

/-- An integer of a width. -/
def integer (w : IntWidth) (raw : Json) : Except LoadError Datum :=
  match raw.int64? with
  | some i => if w.holds i then .ok (.integer w i) else malformed w.name raw
  | none => malformed w.name raw

/-- A single: any number within its range, rounded. -/
def single (raw : Json) : Except LoadError Datum :=
  match raw.double? with
  | some x =>
    if x.isFinite && x.abs.le Single.greatest.widen then .ok (.float x.narrow)
    else malformed "float" raw
  | none => malformed "float" raw

/-- A node as a scalar. -/
def scalar (kind : Scalar) (raw : Json) : Except LoadError Datum :=
  match kind with
  | .bool =>
    match raw.bool? with
    | some b => .ok (.bool b)
    | none => malformed "bool" raw
  | .integer w => integer w raw
  | .float => single raw
  | .double =>
    match raw.double? with
    | some x => .ok (.double x)
    | none => malformed "double" raw
  | .string =>
    match raw.string? with
    | some s => .ok (.string s)
    | none => malformed "string" raw
  | .datetime =>
    match raw.string? with
    | none => malformed "datetime string" raw
    | some s =>
      match DateTime.read? s with
      | some t => .ok (.datetime t)
      | none => fail (.malformedDateTime s)

/-- A node as an item of an enum. -/
def item (id : Nat) (e : EnumDef) (raw : Json) : Except LoadError Datum :=
  match raw.string? with
  | some word =>
    match e.findItem? word with
    | some i => .ok (.enum id i)
    | none => fail (.unknownItem e.fullName word)
  | none => fail (.unknownItem e.fullName raw.compact)

/-! ## Beans -/

/-- The member that names the type of a bean. -/
def tagNode? {α : Type} (members : List (String × α)) : Option α :=
  match Assoc.find? typeKey members with
  | some n => some n
  | none => Assoc.find? fallbackTypeKey members

/-- The concrete bean that a word stands for; a bean without children needs no word. -/
def resolve (l : Loader) (id : Nat) (word? : Option String) : Except LoadError Nat :=
  let b := l.schema.bean id
  if !b.isAbstract then .ok id
  else
    match word? with
    | none => fail (.missingDiscriminator b.fullName)
    | some word =>
      match l.schema.subtype? id word with
      | some id => .ok id
      | none => fail (.unknownSubtype b.fullName word)

/-- The node of a field: under the key of the active variant, else under the name, else under
    the alias. -/
def fieldNode? {α : Type} (l : Loader) (members : List (String × α)) (f : Field) : Option α :=
  match (l.variant.bind f.variantKey?).bind fun key => Assoc.find? key members with
  | some n => some n
  | none =>
    match Assoc.find? f.name members with
    | some n => some n
    | none => f.altName.bind fun a => Assoc.find? a members

/-- The value of a field of a bean. -/
def field (l : Loader) (bean : String) (members : List (String × Node)) (f : Field) :
    Except LoadError (Option Datum) :=
  match l.fieldNode? members f with
  | none => if f.ty.nullable then .ok none else fail (.missingField bean f.name)
  | some n =>
    match n.raw with
    | .null => if f.ty.nullable then .ok none else fail (.nullField bean f.name)
    | _ =>
      match n.load f.ty with
      | .ok d => .ok (some d)
      | .error e => .error e

/-- The values of the fields of a bean, in order. -/
def fields (l : Loader) (bean : String) (members : List (String × Node)) :
    List Field → Except LoadError (List (Option Datum))
  | [] => .ok []
  | f :: fs =>
    match within (.field bean f.name) (l.field bean members f) with
    | .error e => .error e
    | .ok d =>
      match fields l bean members fs with
      | .error e => .error e
      | .ok ds => .ok (d :: ds)

/-- A node with these members as a value of a bean. -/
def loadRecord (l : Loader) (id : Nat) (raw : Json) (members : List (String × Node)) :
    Except LoadError Record :=
  match raw with
  | .object _ =>
    match l.resolve id ((tagNode? members).bind fun n => n.raw.string?) with
    | .error e => .error e
    | .ok id =>
      let b := l.schema.bean id
      match l.fields b.fullName members b.allFields with
      | .error e => .error e
      | .ok ds => .ok ⟨id, ds⟩
  | raw => unexpected "object" raw

/-! ## Sequences and maps -/

/-- The items of a sequence from number `i` on. -/
def loadItems (elem : Ty) (i : Nat) : List Node → Except LoadError (List Datum)
  | [] => .ok []
  | n :: ns =>
    match within (.index i) (n.load elem) with
    | .error e => .error e
    | .ok d =>
      match loadItems elem (i + 1) ns with
      | .error e => .error e
      | .ok ds => .ok (d :: ds)

/-- One entry of a map in pair notation, put behind those before it. -/
def loadPair (key value : Ty) (acc : Entries) (entry : Node) : Except LoadError Entries :=
  match entry.items with
  | [k, v] =>
    match k.load key with
    | .error e => .error e
    | .ok kd =>
      match v.load value with
      | .error e => .error e
      | .ok vd =>
        match acc.insert? kd vd with
        | .ok es => .ok es
        | .error _ => fail (.duplicateKey k.raw.compact)
  | _ => fail (.invalidMap (.notPair entry.raw.compact))

/-- The entries of a map in pair notation, from number `i` on. -/
def loadPairs (key value : Ty) (i : Nat) (acc : Entries) :
    List Node → Except LoadError Entries
  | [] => .ok acc
  | n :: ns =>
    match within (.index i) (loadPair key value acc n) with
    | .error e => .error e
    | .ok acc => loadPairs key value (i + 1) acc ns

/-- A name as a key: read again as a literal of the key type. -/
def loadKey (l : Loader) (key : Ty) (name : String) : Except LoadError Datum :=
  match key with
  | .scalar _ .string => scalar .string (.string name)
  | .named _ (.enum id) => item id (l.schema.enum id) (.string name)
  | .scalar _ kind =>
    if key.isNumeric then
      match Json.read? (Text.trimmed name) with
      | .ok (.number n) => scalar kind (.number n)
      | _ => fail (.malformedScalar "numeric map key" s!"`{name}`")
    else fail (.invalidMap .keyNotText)
  | _ => fail (.invalidMap .keyNotText)

/-- One entry of a map in object notation, put behind those before it. -/
def loadMember (l : Loader) (key value : Ty) (acc : Entries) (name : String) (n : Node) :
    Except LoadError Entries :=
  match l.loadKey key name with
  | .error e => .error e
  | .ok kd =>
    match n.load value with
    | .error e => .error e
    | .ok vd =>
      match acc.insert? kd vd with
      | .ok es => .ok es
      | .error _ => fail (.duplicateKey ("\"" ++ name ++ "\""))

/-- The entries of a map in object notation. -/
def loadMembers (l : Loader) (key value : Ty) (acc : Entries) :
    List (String × Node) → Except LoadError Entries
  | [] => .ok acc
  | (name, n) :: ns =>
    match within (.key name) (l.loadMember key value acc name n) with
    | .error e => .error e
    | .ok acc => loadMembers l key value acc ns

/-- A node with these parts as a map. -/
def loadMap (l : Loader) (key value : Ty) (raw : Json) (items : List Node)
    (members : List (String × Node)) : Except LoadError Entries :=
  match raw with
  | .array _ => loadPairs key value 0 [] items
  | .object _ =>
    if key.isTextKey then l.loadMembers key value [] members
    else fail (.invalidMap (.keyTypeNotText (key.name l.schema)))
  | raw => fail (.invalidMap (.notMap raw.describe))

/-! ## Nodes -/

/-- A node with these parts as a type. -/
def loadAs (l : Loader) (raw : Json) (items : List Node) (members : List (String × Node)) :
    Ty → Except LoadError Datum
  | .scalar _ kind => scalar kind raw
  | .named _ (.enum id) => item id (l.schema.enum id) raw
  | .named _ (.bean id) =>
    match l.loadRecord id raw members with
    | .ok r => .ok r.toDatum
    | .error e => .error e
  | .seq _ kind elem =>
    match raw with
    | .array _ =>
      match loadItems elem 0 items with
      | .ok ds => .ok (.seq kind ds)
      | .error e => .error e
    | raw => unexpected "array" raw
  | .map _ key value =>
    match l.loadMap key value raw items members with
    | .ok es => .ok (.map es)
    | .error e => .error e

mutual

/-- A raw node with its parts. -/
def node (l : Loader) : Json → Node
  | .array xs =>
    let items := nodes l xs
    .mk (.array xs) (l.loadAs (.array xs) items []) items []
  | .object ms =>
    let members := memberNodes l ms
    .mk (.object ms) (l.loadAs (.object ms) [] members) [] members
  | .null => .mk .null (l.loadAs .null [] []) [] []
  | .bool b => .mk (.bool b) (l.loadAs (.bool b) [] []) [] []
  | .number n => .mk (.number n) (l.loadAs (.number n) [] []) [] []
  | .string s => .mk (.string s) (l.loadAs (.string s) [] []) [] []

def nodes (l : Loader) : List Json → List Node
  | [] => []
  | x :: xs => node l x :: nodes l xs

def memberNodes (l : Loader) : List (String × Json) → List (String × Node)
  | [] => []
  | (k, x) :: ms => (k, node l x) :: memberNodes l ms

end

/-- Loads raw JSON as a type. -/
def load (l : Loader) (ty : Ty) (raw : Json) : Except LoadError Datum := (l.node raw).load ty

/-- Loads raw JSON as a value of a bean. -/
def loadBean (l : Loader) (id : Nat) (raw : Json) : Except LoadError Record :=
  l.loadRecord id raw (l.node raw).members

end Loader

end GameConfig
