import GameConfig.Rule.Basic
import GameConfig.Schema.Error
import GameConfig.Ty.Name

/-
  From the tags of a field to rules.

  A tag whose key is registered asks for a rule of some kind; its text is the
  argument.  `RuleKind.compile` makes the rule for a type, or says why there is
  none.
-/

namespace GameConfig

/-- The field that a rule is compiled for. -/
structure Site where
  schema : Schema
  bean : BeanDef
  field : Field

namespace Site

def text (site : Site) : String := site.bean.fullName ++ "." ++ site.field.name

def invalid (site : Site) (kind : RuleKind) (fault : RuleFault) : SchemaError :=
  .invalidRule site.text kind.name fault

def unsupported (site : Site) (kind : RuleKind) (ty : Ty) : SchemaError :=
  .unsupportedType site.text kind.name (ty.name site.schema)

end Site

/-! ## One kind after the other -/

namespace Rule

/-- The name of a bean relative to a namespace that it lies in. -/
def relativeName? (space fullName : String) : Option String :=
  ((Text.dropFront? space.toList fullName.toList).bind (Text.dropFront? ['.'])).map String.ofList

/-- The spellings of a bean that its name is found by from inside a namespace. -/
def spellings (s : Schema) (space : String) (id : Nat) : List String :=
  let full := (s.bean id).fullName
  let all := full :: (relativeName? space full).toList
  all.filter fun name => s.findType? name (some space) == some (.bean id)

/-- A text that names a bean or one of its descendants. -/
def compileNames (site : Site) (ty : Ty) (argument : String) : Except SchemaError Rule :=
  let name := Text.trimmed argument
  let s := site.schema
  if name.isEmpty then .error (site.invalid .constructor .emptyBase)
  else
    match s.findType? name (some site.bean.space) with
    | some (.enum _) => .error (.notBean name site.text)
    | none => .error (.unknownType name site.text)
    | some (.bean id) =>
      match ty with
      | .scalar _ .string =>
        let base := s.bean id
        .ok (.names base.fullName (base.family.flatMap (spellings s base.space))
          (base.family.map fun i => (s.bean i).name))
      | ty => .error (site.unsupported .constructor ty)

/-- The interval of a range rule for a scalar type; integers keep to 64 bits where the argument
    does. -/
def rangeFor? (kind : Scalar) (argument : String) : Option NumberRange :=
  match kind with
  | .float => (doubles? argument).map fun i => .singles (i.map Binary.narrow)
  | .integer _ =>
    match integers? argument with
    | some i => some (.integers i)
    | none => (doubles? argument).map .doubles
  | _ => (doubles? argument).map .doubles

/-- A number within an interval. -/
def compileRange (site : Site) (ty : Ty) (argument : String) : Except SchemaError Rule :=
  match ty with
  | .scalar _ kind =>
    if ty.isNumeric then
      match rangeFor? kind argument with
      | some range => .ok (.within range)
      | none => .error (site.invalid .range (.malformedInterval argument))
    else .error (site.unsupported .range ty)
  | ty => .error (site.unsupported .range ty)

/-- The values of the type have a size. -/
def isSized : Ty → Bool
  | .scalar _ .string | .seq _ _ _ | .map _ _ _ => true
  | _ => false

/-- An interval of sizes: its least value is not negative. -/
def sizes? (argument : String) : Option (Interval Double) :=
  match doubles? argument with
  | some i => if i.min.all fun m => Binary.le .zero m then some i else none
  | none => none

/-- A size within an interval. -/
def compileSize (site : Site) (ty : Ty) (argument : String) : Except SchemaError Rule :=
  if isSized ty then
    match sizes? argument with
    | some i => .ok (.sized i)
    | none => .error (site.invalid .size (.malformedSize argument))
  else .error (site.unsupported .size ty)

/-- The values of the type are texts or sequences of texts. -/
def isTextual : Ty → Bool
  | .scalar _ .string | .seq _ _ (.scalar _ .string) => true
  | _ => false

/-- A pattern that texts match. -/
def compileRegex (site : Site) (ty : Ty) (argument : String) : Except SchemaError Rule :=
  if isTextual ty then
    match Pattern.Regex.read? argument with
    | some regex => .ok (.matching argument regex)
    | none => .error (site.invalid .regex .malformedPattern)
  else .error (site.unsupported .regex ty)

/-- The items of a list of values: what stands between the commas, if it is not blank. -/
def listed (argument : String) : List String :=
  (Text.piecesWith Text.trim ',' argument).filter fun item => !item.isEmpty

/-- Reads all items, or names the first that cannot be read. -/
def readItems {α : Type} (read : String → Option α) : List String → Except String (List α)
  | [] => .ok []
  | item :: items =>
    match read item with
    | none => .error item
    | some a =>
      match readItems read items with
      | .ok as => .ok (a :: as)
      | .error bad => .error bad

/-- The values of a type that a list allows: none for types that have no such lists, else the
    values or the first item that is none. -/
def allowed? (s : Schema) (items : List String) : Ty → Option (Except String Allowed)
  | .scalar _ (.integer _) =>
    some ((readItems (fun i => Numeral.readInt64? i.toList) items).map .integers)
  | .scalar _ .float =>
    let read (i : String) := (Numeral.readDouble? i.toList).map Binary.narrow
    some ((readItems read items).map .singles)
  | .scalar _ .double =>
    some ((readItems (fun i => Numeral.readDouble? i.toList) items).map .doubles)
  | .scalar _ .string => some (.ok (.texts items))
  | .named _ (.enum id) => some ((readItems (s.enum id).findItem? items).map (.items id))
  | _ => none

/-- A value from a list. -/
def compileSet (site : Site) (ty : Ty) (argument : String) : Except SchemaError Rule :=
  match listed argument with
  | [] => .error (site.invalid .set .noValues)
  | items =>
    match allowed? site.schema items ty with
    | none => .error (site.unsupported .set ty)
    | some (.error bad) => .error (site.invalid .set (.badValue bad (ty.name site.schema)))
    | some (.ok allowed) => .ok (.oneOf allowed (", ".intercalate items))

end Rule

/-- The rule of a kind for a type, from the argument of its tag. -/
def RuleKind.compile (site : Site) (ty : Ty) (argument : String) :
    RuleKind → Except SchemaError Rule
  | constructor => Rule.compileNames site ty argument
  | range => Rule.compileRange site ty argument
  | size => Rule.compileSize site ty argument
  | regex => Rule.compileRegex site ty argument
  | set => Rule.compileSet site ty argument

/-! ## Registries -/

/-- The kinds of rules that tags may ask for, by key. -/
abbrev Registry := Assoc RuleKind

/-- All kinds under their own names. -/
def Registry.standard : Registry := RuleKind.all.map fun k => (k.name, k)

/-- The rules of those tags that the registry knows, in order. -/
def compileTags (site : Site) (registry : Registry) (ty : Ty) :
    List (String × String) → Except SchemaError (List Rule)
  | [] => .ok []
  | (key, argument) :: tags =>
    match Assoc.find? key registry with
    | none => compileTags site registry ty tags
    | some kind =>
      match kind.compile site ty argument with
      | .error e => .error e
      | .ok rule =>
        match compileTags site registry ty tags with
        | .error e => .error e
        | .ok rules => .ok (rule :: rules)

end GameConfig
