import GameConfig.Json.Document
import GameConfig.Schema.Error

/-
  Reading structured data out of a document.

  A decoder walks a `Document` in order and stops at the first `Misfit`: the
  place, as a path from the top, and what is wrong there.

  * `Decode.text`, `flag`, `list`, `dictionary`, `optional` read the basic shapes;
  * a `Shape` describes a record by its members; `Shape.read` reads it from an
    object, or from a list of the members in their order.

  What a document comes from makes a difference where a text can be wrong and a
  value cannot: see `Origin`.
-/

namespace GameConfig

/-- A step on the way to a place in a document. -/
inductive Segment where
  | index (i : Nat)
  | key (name : String)
  /-- A member whose key cannot be read. -/
  | unreadable
deriving DecidableEq, Repr

/-- What is wrong with a document, and where. -/
structure Misfit where
  path : List Segment
  fault : DescriptorFault
deriving DecidableEq, Repr

/-- What a document was read from: a text, or a finished value. -/
inductive Origin where
  | text
  | value
deriving DecidableEq, Repr

/-- The steps of a path behind the first, with a dot before each key. -/
def Segment.renderRest : List Segment → String
  | [] => ""
  | .index i :: rest => s!"[{i}]" ++ renderRest rest
  | .key name :: rest => "." ++ name ++ renderRest rest
  | .unreadable :: rest => ".?" ++ renderRest rest

/-- A path as text; a dot stands for the empty path. -/
def Segment.render : List Segment → String
  | [] => "."
  | .key name :: rest => name ++ renderRest rest
  | .unreadable :: rest => "?" ++ renderRest rest
  | .index i :: rest => s!"[{i}]" ++ renderRest rest

def Misfit.toError (m : Misfit) : SchemaError := .descriptor (Segment.render m.path) m.fault

namespace Decode

/-- What a decoder gives. -/
abbrev Result (α : Type) := Except Misfit α

/-- A misfit of the document itself. -/
def here {α : Type} (fault : DescriptorFault) : Result α := .error ⟨[], fault⟩

/-- A misfit of the text of the document itself. -/
def faulty {α : Type} (fault : Fault) : Result α := here (.text fault)

/-- Puts a step before the path of a misfit. -/
def within {α : Type} (s : Segment) : Result α → Result α
  | .ok a => .ok a
  | .error m => .error { m with path := s :: m.path }

/-- The objection to a document that is not what was expected. -/
def mismatch {α : Type} (expected : String) : Document → Result α
  | .null => here (.invalidType .null expected)
  | .bool b => here (.invalidType (.bool b) expected)
  | .number n => here (.invalidType (.number n) expected)
  | .string s => here (.invalidType (.string s) expected)
  | .array _ _ => here (.invalidType .sequence expected)
  | .object _ _ => here (.invalidType .map expected)
  | .broken f => faulty f

def text : Document → Result String
  | .string s => .ok s
  | d => mismatch "a string" d

def flag : Document → Result Bool
  | .bool b => .ok b
  | d => mismatch "a boolean" d

/-- `null` is none. -/
def optional {α : Type} (read : Document → Result α) : Document → Result (Option α)
  | .null => .ok none
  | d =>
    match read d with
    | .ok a => .ok (some a)
    | .error m => .error m

/-- The items of a list, from number `i` on. -/
def items {α : Type} (read : Document → Result α) (ending : Option Fault) (i : Nat) :
    List Document → Result (List α)
  | [] =>
    match ending with
    | some f => faulty f
    | none => .ok []
  | d :: ds =>
    match within (.index i) (read d) with
    | .error m => .error m
    | .ok a =>
      match items read ending (i + 1) ds with
      | .error m => .error m
      | .ok as => .ok (a :: as)

def list {α : Type} (read : Document → Result α) : Document → Result (List α)
  | .array ds ending => items read ending 0 ds
  | d => mismatch "a sequence" d

/-- The objection to the end of the members of an object, if there is one. -/
def endOf : MembersEnd Document → Result Unit
  | .closed => .ok ()
  | .fault f => within .unreadable (faulty f)
  | .notKey _ => within .unreadable (faulty .keyNotString)
  | .noColon _ f => faulty f

/-- The entries of a dictionary; a repeated key takes its last value. -/
def entries {α : Type} (read : Document → Result α) (ending : MembersEnd Document)
    (acc : Assoc α) : List (String × Document) → Result (Assoc α)
  | [] =>
    match endOf ending with
    | .ok () => .ok acc
    | .error m => .error m
  | (k, d) :: ds =>
    match within (.key k) (read d) with
    | .error m => .error m
    | .ok a => entries read ending (Assoc.insert k a acc) ds

def dictionary {α : Type} (read : Document → Result α) : Document → Result (Assoc α)
  | .object ds ending => entries read ending [] ds
  | d => mismatch "a map" d

/-! ## Values that are read whole before they are judged -/

mutual

/-- The first fault of the text of a document. -/
def sound : Document → Result Unit
  | .broken f => faulty f
  | .array ds ending =>
    match soundItems 0 ds with
    | .error m => .error m
    | .ok () =>
      match ending with
      | some f => faulty f
      | none => .ok ()
  | .object ds ending =>
    match soundMembers ds with
    | .error m => .error m
    | .ok () => endOf ending
  | _ => .ok ()

def soundItems (i : Nat) : List Document → Result Unit
  | [] => .ok ()
  | d :: ds =>
    match within (.index i) (sound d) with
    | .error m => .error m
    | .ok () => soundItems (i + 1) ds

def soundMembers : List (String × Document) → Result Unit
  | [] => .ok ()
  | (k, d) :: ds =>
    match within (.key k) (sound d) with
    | .error m => .error m
    | .ok () => soundMembers ds

end

/-! ## Choices by name -/

/-- The variant with this name. -/
def variant {α : Type} (known : List String) (find : String → Option α) (name : String) :
    Result α :=
  match find name with
  | some a => .ok a
  | none => here (.unknownVariant name known)

/-- What must stand behind the name of a variant without content. -/
def unit (name : String) (d : Document) : Result Unit :=
  match d with
  | .null => .ok ()
  | d => within (.key name) (mismatch "unit" d)

/-- Reads a variant from a text: a string, or an object with the variant as its only key and
    null as its value. -/
def choiceOfText {α : Type} (known : List String) (find : String → Option α) :
    Document → Result α
  | .string s => variant known find s
  | .broken f => faulty f
  | .object [] (.notKey d) => mismatch "variant identifier" d
  | .object [] (.noColon name f) =>
    match variant known find name with
    | .ok _ => faulty f
    | .error m => .error m
  | .object [] .closed => faulty .noValue
  | .object [] (.fault .endInObject) => faulty .endInValue
  | .object [] (.fault f) => faulty f
  | .object ((name, d) :: more) ending =>
    match variant known find name with
    | .error m => .error m
    | .ok a =>
      match unit name d with
      | .error m => .error m
      | .ok () =>
        match more, ending with
        | [], .closed => .ok a
        | [], .fault .endInObject => faulty .endInObject
        | _, _ => faulty .noValue
  | _ => faulty .noValue

/-- Reads a variant from a value. -/
def choiceOfValue {α : Type} (known : List String) (find : String → Option α) :
    Document → Result α
  | .string s => variant known find s
  | .object [(name, d)] _ =>
    match variant known find name with
    | .error m => .error m
    | .ok a =>
      match unit name d with
      | .error m => .error m
      | .ok () => .ok a
  | .object _ _ => here .notSingleKey
  | d => mismatch "string or map" d

/-- Reads a variant. -/
def choice {α : Type} (origin : Origin) (known : List String) (find : String → Option α) :
    Document → Result α :=
  match origin with
  | .text => choiceOfText known find
  | .value => choiceOfValue known find

/-! ## Records -/

/-- A member of a record: its key, whether it must be there, and how it is stored. -/
structure Member (σ : Type) where
  key : String
  required : Bool
  store : Document → σ → Result σ

/-- A member read by `read` and put in by `put`. -/
def Member.of {α σ : Type} (key : String) (required : Bool) (read : Document → Result α)
    (put : α → σ → σ) : Member σ where
  key := key
  required := required
  store d s :=
    match read d with
    | .ok a => .ok (put a s)
    | .error m => .error m

/-- A record: its name, its members in order, whether it has no others, and what it is when no
    member is given. -/
structure Shape (σ : Type) where
  name : String
  members : List (Member σ)
  closed : Bool
  blank : σ

namespace Shape

variable {σ : Type}

def keys (shape : Shape σ) : List String := shape.members.map (·.key)

def expected (shape : Shape σ) : String := "struct " ++ shape.name

/-- The record read so far and the keys seen, after members of an object. -/
def readMembers (shape : Shape σ) (seen : List String) (s : σ) :
    List (String × Document) → Result (σ × List String)
  | [] => .ok (s, seen)
  | (key, d) :: ds =>
    match shape.members.find? fun m => m.key == key with
    | none =>
      if shape.closed then within (.key key) (here (.unknownField key shape.keys))
      else readMembers shape seen s ds
    | some m =>
      if seen.contains key then here (.duplicateField key)
      else match within (.key key) (m.store d s) with
        | .error e => .error e
        | .ok s => readMembers shape (key :: seen) s ds

/-- The objection to a key that no colon follows. -/
def keyOnly (shape : Shape σ) (seen : List String) (key : String) : Result Unit :=
  if shape.keys.contains key then
    if seen.contains key then here (.duplicateField key) else .ok ()
  else if shape.closed then within (.key key) (here (.unknownField key shape.keys))
  else .ok ()

/-- The record, if every required member was seen. -/
def complete (shape : Shape σ) (seen : List String) (s : σ) : Result σ :=
  match shape.members.find? fun m => m.required && !seen.contains m.key with
  | some m => here (.missingField m.key)
  | none => .ok s

def ofObject (shape : Shape σ) (ds : List (String × Document)) (ending : MembersEnd Document) :
    Result σ :=
  match shape.readMembers [] shape.blank ds with
  | .error e => .error e
  | .ok (s, seen) =>
    match ending with
    | .noColon key f =>
      match shape.keyOnly seen key with
      | .error e => .error e
      | .ok () => faulty f
    | ending =>
      match endOf ending with
      | .error e => .error e
      | .ok () => shape.complete seen s

/-- The objection to what stands in a list behind the last member. -/
def surplus (origin : Origin) (length : Nat) (ending : Option Fault) : Bool → Result Unit
  | true =>
    match origin with
    | .text => faulty .trailingCharacters
    | .value => here (.invalidLength length "fewer elements in array")
  | false =>
    match ending with
    | none => .ok ()
    | some .trailingComma => faulty .trailingComma
    | some .endInList => faulty .endInList
    | some _ => faulty .trailingCharacters

/-- The objection to a list that ends before the member with number `i`. -/
def shortage (shape : Shape σ) (ending : Option Fault) (i : Nat) (missing : List (Member σ)) :
    Result Unit :=
  match ending with
  | some f => faulty f
  | none =>
    match missing.findIdx? fun m => m.required with
    | some k =>
      here (.invalidLength (i + k) (shape.expected ++ s!" with {shape.members.length} elements"))
    | none => .ok ()

/-- Reads the members in their order, from number `i` on. -/
def readItems (shape : Shape σ) (origin : Origin) (length : Nat) (ending : Option Fault)
    (i : Nat) (s : σ) : List (Member σ) → List Document → Result σ
  | [], rest =>
    match surplus origin length ending (!rest.isEmpty) with
    | .ok () => .ok s
    | .error e => .error e
  | m :: ms, [] =>
    match shape.shortage ending i (m :: ms) with
    | .ok () => .ok s
    | .error e => .error e
  | m :: ms, d :: ds =>
    match within (.index i) (m.store d s) with
    | .error e => .error e
    | .ok s => readItems shape origin length ending (i + 1) s ms ds

/-- Reads a record from an object or a list. -/
def read (shape : Shape σ) (origin : Origin) : Document → Result σ
  | .object ds ending => shape.ofObject ds ending
  | .array ds ending =>
    shape.readItems origin ds.length ending 0 shape.blank shape.members ds
  | d => mismatch shape.expected d

end Shape

end Decode

end GameConfig
