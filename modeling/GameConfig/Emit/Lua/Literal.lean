import GameConfig.Number.Numeral

/-
  Names and texts in Lua.

  `Lua.quoted` writes a text as a literal in single quotes.  A name that is no
  identifier, or a word that the language keeps for itself, is written as a
  literal in square brackets.
-/

namespace GameConfig.Lua

/-- The words that are no names. -/
def keywords : List String := [
  "and", "break", "do", "else", "elseif", "end", "false", "for", "function", "goto", "if", "in",
  "local", "nil", "not", "or", "repeat", "return", "then", "true", "until", "while"]

/-- A character inside a literal. -/
def quoteChar : Char → List Char
  | '\'' => ['\\', '\'']
  | '\\' => ['\\', '\\']
  | '\n' => ['\\', 'n']
  | c => [c]

/-- A text as a literal. -/
def quoted (s : String) : String := String.ofList ('\'' :: (s.toList.flatMap quoteChar ++ ['\'']))

def isLetter (c : Char) : Bool := ('a' ≤ c && c ≤ 'z') || ('A' ≤ c && c ≤ 'Z') || c == '_'

/-- The text can be written as a name. -/
def isName (s : String) : Bool :=
  !keywords.contains s &&
    match s.toList with
    | [] => false
    | c :: cs => isLetter c && cs.all fun d => isLetter d || Numeral.isDigit d

/-- A text as a key in brackets. -/
def bracketed (s : String) : String := "[" ++ quoted s ++ "]"

/-- The member of a table under a name. -/
def member (table name : String) : String :=
  if isName name then table ++ "." ++ name else table ++ bracketed name

/-- A key in a table constructor. -/
def key (name : String) : String := if isName name then name else bracketed name

/-- A table constructor around some entries. -/
def braces (inner : String) : String := "\x7b " ++ inner ++ " \x7d"

end GameConfig.Lua
