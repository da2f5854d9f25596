import GameConfig.Number.Numeral

/-
  Generated files.
-/

namespace GameConfig

/-- A generated file; its path is relative to the output directory. -/
structure OutputFile where
  path : String
  content : String
deriving DecidableEq, Repr

/-- An upper-case letter in lower case with a dash in front; any other character as it is. -/
def dashed (c : Char) : List Char :=
  if 'A' ≤ c && c ≤ 'Z' then ['-', Numeral.lowerAscii c] else [c]

/-- A name with its words in lower case and dashes between them: `DropItem` as `drop-item`. -/
def kebabCase (name : String) : String :=
  match name.toList with
  | [] => ""
  | c :: cs => String.ofList (Numeral.lowerAscii c :: cs.flatMap dashed)

/-- The text, unless it is absent or empty. -/
def shownText : Option String → Option String
  | some s => if s.isEmpty then none else some s
  | none => none

end GameConfig
