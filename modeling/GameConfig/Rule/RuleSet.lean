import GameConfig.Rule.Compile

/-
  The rules of a schema, compiled once.

  The rules of a field form a tree of the shape of its type, so that a tag on
  the element type of a list is a rule for each element.  `RuleSet.faults` walks
  a record along these trees and tells what each rule has to say, and where.
-/

namespace GameConfig

/-- The rules for the values of a type and for their parts. -/
inductive RuleTree where
  | leaf (rules : List Rule)
  /-- The parts are the fields of whatever bean the value names. -/
  | bean (rules : List Rule)
  | seq (rules : List Rule) (kind : SeqKind) (elem : RuleTree)
  | map (rules : List Rule) (key value : RuleTree)

namespace RuleTree

def rules : RuleTree → List Rule
  | leaf rs | bean rs | seq rs _ _ | map rs _ _ => rs

/-- The tree with more rules for the value as a whole, behind the others. -/
def add (more : List Rule) : RuleTree → RuleTree
  | leaf rs => leaf (rs ++ more)
  | bean rs => bean (rs ++ more)
  | seq rs k e => seq (rs ++ more) k e
  | map rs k v => map (rs ++ more) k v

/-- There is no rule anywhere in the tree. -/
def isEmpty : RuleTree → Bool
  | leaf rs | bean rs => rs.isEmpty
  | seq rs _ e => rs.isEmpty && e.isEmpty
  | map rs k v => rs.isEmpty && k.isEmpty && v.isEmpty

/-- The rules that the tags inside a type ask for, those of the whole before those of parts. -/
def ofTy (site : Site) (registry : Registry) (ty : Ty) : Except SchemaError RuleTree :=
  match compileTags site registry ty ty.tags with
  | .error e => .error e
  | .ok rules =>
    match ty with
    | .scalar _ _ | .named _ (.enum _) => .ok (leaf rules)
    | .named _ (.bean _) => .ok (bean rules)
    | .seq _ kind elem =>
      match ofTy site registry elem with
      | .error e => .error e
      | .ok e => .ok (seq rules kind e)
    | .map _ key value =>
      match ofTy site registry key with
      | .error e => .error e
      | .ok k =>
        match ofTy site registry value with
        | .error e => .error e
        | .ok v => .ok (map rules k v)

/-- The rules of a field: those inside its type, then those that its own tags ask for. -/
def ofField (site : Site) (registry : Registry) : Except SchemaError RuleTree :=
  match ofTy site registry site.field.ty with
  | .error e => .error e
  | .ok tree =>
    match compileTags site registry site.field.ty site.field.tags with
    | .error e => .error e
    | .ok more => .ok (tree.add more)

end RuleTree

/-- The fields of a bean with their rules, in order. -/
abbrev BeanRules := List (String × RuleTree)

/-- The rules of all beans, by number. -/
structure RuleSet where
  beans : List BeanRules

namespace RuleSet

def compileFields (s : Schema) (registry : Registry) (b : BeanDef) :
    List Field → Except SchemaError BeanRules
  | [] => .ok []
  | f :: fs =>
    match RuleTree.ofField ⟨s, b, f⟩ registry with
    | .error e => .error e
    | .ok tree =>
      match compileFields s registry b fs with
      | .error e => .error e
      | .ok rest => .ok ((f.name, tree) :: rest)

def compileBeans (s : Schema) (registry : Registry) :
    List BeanDef → Except SchemaError (List BeanRules)
  | [] => .ok []
  | b :: bs =>
    match compileFields s registry b b.allFields with
    | .error e => .error e
    | .ok fields =>
      match compileBeans s registry bs with
      | .error e => .error e
      | .ok rest => .ok (fields :: rest)

/-- Compiles the rules of all fields of all beans. -/
def compile (s : Schema) (registry : Registry) : Except SchemaError RuleSet :=
  (compileBeans s registry s.beans).map RuleSet.mk

def isEmpty (set : RuleSet) : Bool := set.beans.all fun b => b.all fun f => f.2.isEmpty

/-- The rules for the fields of a bean. -/
def bean (set : RuleSet) (id : Nat) : BeanRules := set.beans.getD id []

end RuleSet

/-! ## Walking a value -/

/-- Something that a rule has to say about a value in a record. -/
structure Failure where
  path : String
  /-- The file that the record comes from. -/
  source : String
  validator : String
  message : String
deriving DecidableEq, Repr

/-- The failure as a line. -/
def Failure.line (f : Failure) : String :=
  f.path ++ " (from " ++ f.source ++ "): [" ++ f.validator ++ "] " ++ f.message

/-- What some rules have to say about the value at a path. -/
def applyRules (s : Schema) (source path : String) (rules : List Rule) (d : Datum) :
    List Failure :=
  rules.flatMap fun rule =>
    (rule.faults s d).map fun message => ⟨path, source, rule.kind.name, message⟩

mutual

/-- The failures of a value and its parts, the whole before its parts. -/
def walk (s : Schema) (set : RuleSet) (source path : String) (tree : RuleTree) :
    Datum → List Failure
  | .seq kind items =>
    applyRules s source path tree.rules (.seq kind items) ++
      match tree with
      | .seq _ k elem => if k = kind then walkItems s set source path elem 0 items else []
      | _ => []
  | .map entries =>
    applyRules s source path tree.rules (.map entries) ++
      match tree with
      | .map _ key value => walkEntries s set source path key value entries
      | _ => []
  | .bean id fields =>
    applyRules s source path tree.rules (.bean id fields) ++
      match tree with
      | .bean _ => walkFields s set source path (set.bean id) fields
      | _ => []
  | .bool b => applyRules s source path tree.rules (.bool b)
  | .integer w i => applyRules s source path tree.rules (.integer w i)
  | .float x => applyRules s source path tree.rules (.float x)
  | .double x => applyRules s source path tree.rules (.double x)
  | .string t => applyRules s source path tree.rules (.string t)
  | .datetime t => applyRules s source path tree.rules (.datetime t)
  | .enum id item => applyRules s source path tree.rules (.enum id item)

/-- The items of a sequence from number `i` on. -/
def walkItems (s : Schema) (set : RuleSet) (source path : String) (elem : RuleTree) (i : Nat) :
    List Datum → List Failure
  | [] => []
  | d :: ds =>
    walk s set source (path ++ "[" ++ integerText i ++ "]") elem d ++
      walkItems s set source path elem (i + 1) ds

/-- The keys and values of a map; both stand at the path of the key. -/
def walkEntries (s : Schema) (set : RuleSet) (source path : String) (key value : RuleTree) :
    List (Datum × Datum) → List Failure
  | [] => []
  | (k, v) :: es =>
    let inner := path ++ "[" ++ (k.toJson s).compact ++ "]"
    walk s set source inner key k ++ walk s set source inner value v ++
      walkEntries s set source path key value es

/-- The fields of a bean, as far as there are both rules and values. -/
def walkFields (s : Schema) (set : RuleSet) (source path : String) :
    BeanRules → List (Option Datum) → List Failure
  | (name, tree) :: rules, some d :: ds =>
    walk s set source (path ++ "." ++ name) tree d ++ walkFields s set source path rules ds
  | _ :: rules, none :: ds => walkFields s set source path rules ds
  | _, _ => []

end

/-- The failures of a record at a path. -/
def RuleSet.faults (set : RuleSet) (s : Schema) (source path : String) (r : Record) :
    List Failure :=
  walkFields s set source path (set.bean r.bean) r.fields

end GameConfig
