import GameConfig.Datum.Export
import GameConfig.Json.Printer
import GameConfig.Pattern.Reader
import GameConfig.Rule.Interval

/-
  Rules for values.

  A rule is what a validator has been compiled to for one type.  `Rule.faults`
  gives what it has to say about a value; a value of a kind that the rule is not
  about passes.
-/

namespace GameConfig

/-- The kinds of rules. -/
inductive RuleKind where
  | constructor
  | range
  | size
  | regex
  | set
deriving DecidableEq, Repr

namespace RuleKind

def all : List RuleKind := [constructor, range, size, regex, set]

def name : RuleKind → String
  | constructor => "constructor"
  | range => "range"
  | size => "size"
  | regex => "regex"
  | set => "set"

def ofName? (name : String) : Option RuleKind := all.find? fun k => k.name == name

end RuleKind

/-- An interval at the precision of the values it is compared with. -/
inductive NumberRange where
  | integers (interval : Interval Int)
  | singles (interval : Interval Single)
  | doubles (interval : Interval Double)
deriving Repr

/-- The values that a set rule allows. -/
inductive Allowed where
  | integers (values : List Int)
  | singles (values : List Single)
  | doubles (values : List Double)
  | texts (values : List String)
  | items (enum : Nat) (values : List Nat)
deriving Repr

/-- A rule, ready to be applied. -/
inductive Rule where
  /-- A text that names a bean or one of its descendants: the full name of the bean, the
      spellings that are accepted and the simple names for the message. -/
  | names (base : String) (accepted valid : List String)
  | within (range : NumberRange)
  /-- The length of a text, or the number of items or entries. -/
  | sized (interval : Interval Double)
  /-- A text, or each text of a sequence, that a pattern matches. -/
  | matching (pattern : String) (regex : Pattern.Regex)
  | oneOf (allowed : Allowed) (listing : String)

namespace Rule

def kind : Rule → RuleKind
  | names _ _ _ => .constructor
  | within _ => .range
  | sized _ => .size
  | matching _ _ => .regex
  | oneOf _ _ => .set

/-- The message about a number, unless the interval contains it. -/
def outside {α : Type} [Endpoint α] (i : Interval α) (inside : Bool) (number : String) :
    List String :=
  if inside then [] else [number ++ " is outside " ++ i.text]

end Rule

/-- What a range has to say about a value. -/
def NumberRange.faults (range : NumberRange) (d : Datum) : List String :=
  match range with
  | integers i =>
    match d.integer? with
    | some v => Rule.outside i (i.contains v) (integerText v)
    | none => []
  | singles i =>
    match d with
    | .float x => Rule.outside i (i.contains x) x.display
    | d =>
      match d.double? with
      | some x => Rule.outside i (i.contains x.narrow) x.display
      | none => []
  | doubles i =>
    match d.double? with
    | some x => Rule.outside i (i.contains x) x.display
    | none => []

/-- The value is one of those allowed, or of another kind. -/
def Allowed.admits (allowed : Allowed) (d : Datum) : Bool :=
  match allowed, d with
  | integers xs, d =>
    match d.integer? with
    | some v => xs.contains v
    | none => true
  | singles xs, .float x => xs.any x.eqv
  | singles xs, d =>
    match d.double? with
    | some x => xs.any x.narrow.eqv
    | none => true
  | doubles xs, d =>
    match d.double? with
    | some x => xs.any x.eqv
    | none => true
  | texts xs, .string s => xs.contains s
  | items id xs, .enum e item => e != id || xs.contains item
  | _, _ => true

/-- The size of a text, a sequence or a map. -/
def Datum.size? : Datum → Option Nat
  | .string s => some s.length
  | .seq _ items => some items.length
  | .map entries => some entries.length
  | _ => none

namespace Rule

/-- What is said about a text that should name a bean. -/
def nameFaults (base : String) (accepted valid : List String) (name : String) : List String :=
  if Text.isBlankText name then ["type name is empty"]
  else if accepted.contains name then []
  else ["'" ++ name ++ "' is not '" ++ base ++ "' or one of its subtypes; valid types: [" ++
    ", ".intercalate valid ++ "]"]

/-- What is said about a text that should match. -/
def matchFaults (pattern : String) (regex : Pattern.Regex) (s : String) : List String :=
  if regex.isIn s then [] else ["'" ++ s ++ "' does not match /" ++ pattern ++ "/"]

/-- What the rule has to say about a value, in order. -/
def faults (s : Schema) (rule : Rule) (d : Datum) : List String :=
  match rule with
  | names base accepted valid =>
    match d with
    | .string name => nameFaults base accepted valid name
    | _ => []
  | within range => range.faults d
  | sized i =>
    match d.size? with
    | some n =>
      if i.contains (.ofInt n) then [] else ["size " ++ integerText n ++ " is outside " ++ i.text]
    | none => []
  | matching pattern regex =>
    match d with
    | .string text => matchFaults pattern regex text
    | .seq _ items => (items.filterMap Datum.text?).flatMap (matchFaults pattern regex)
    | _ => []
  | oneOf allowed listing =>
    if allowed.admits d then []
    else [(d.toJson s).compact ++ " is not one of [" ++ listing ++ "]"]

end Rule

end GameConfig
