import GameConfig.Emit.Lua.Literal
import GameConfig.Schema.Basic

/-
  Lua expressions that read values.

  `Lua.reader` is a function that reads a value of a type, and `Lua.readExpr`
  the expression that reads what a given expression holds.
-/

namespace GameConfig.Lua

/-- The function that reads values of a bean. -/
def beanReader (s : Schema) (id : Nat) : String :=
  "beans" ++ bracketed (s.bean id).fullName ++ "._deserialize"

/-- The name of the function that reads scalars. -/
def scalarReader : Scalar → String
  | .bool => "readBool"
  | .integer .byte => "readByte"
  | .integer .short => "readShort"
  | .integer .int => "readInt"
  | .integer .long => "readLong"
  | .float => "readFloat"
  | .double => "readDouble"
  | .string => "readString"
  | .datetime => "readDateTime"

/-- The name of the function that reads sequences. -/
def seqReader : SeqKind → String
  | .array => "readArray"
  | .list => "readList"
  | .set => "readSet"

/-- A function that passes its argument to a reader of collections. -/
def nested (collection elem : String) : String :=
  "function(_x_) return " ++ collection ++ "(_x_, " ++ elem ++ ") end"

/-- A function that reads values of a type. -/
def reader (s : Schema) : Ty → String
  | .scalar _ k => scalarReader k
  | .named _ (.enum _) => "readEnum"
  | .named _ (.bean id) => beanReader s id
  | .seq _ k e => nested (seqReader k) (reader s e)
  | .map _ _ v => nested "readMap" (reader s v)

/-- The expression that reads a value of a type from `x`; with `factory`, the elements of a
    sequence are made by a factory. -/
def readExpr (s : Schema) (factory : Bool) (x : String) : Ty → String
  | .seq _ k e =>
    seqReader k ++ "(" ++ x ++ ", " ++ reader s e ++ (if factory then ", true)" else ")")
  | .map _ _ v => "readMap(" ++ x ++ ", " ++ reader s v ++ ")"
  | ty => reader s ty ++ "(" ++ x ++ ")"

end GameConfig.Lua
