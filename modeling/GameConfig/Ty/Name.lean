import GameConfig.Schema.Basic

/-
  The name of a type, in the notation of type expressions without tags and
  parentheses.
-/

namespace GameConfig

/-- The full name of a named type. -/
def Schema.refName (s : Schema) : TypeRef → String
  | .bean id => (s.bean id).fullName
  | .enum id => (s.enum id).fullName

/-- Marks a name as allowing null. -/
def Mark.onName (m : Mark) (name : String) : String := if m.nullable then name ++ "?" else name

/-- The name of a type. -/
def Ty.name (s : Schema) : Ty → String
  | .scalar m k => m.onName k.name
  | .named m r => m.onName (s.refName r)
  | .seq m k e => m.onName (k.name ++ "," ++ e.name s)
  | .map m k v => m.onName ("map," ++ k.name s ++ "," ++ v.name s)

end GameConfig
