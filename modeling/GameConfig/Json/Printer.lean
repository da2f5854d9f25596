import GameConfig.Json.Basic
import GameConfig.Number.Printer

/-
  Writing JSON values as text.

  * `Json.compact` writes without any white space;
  * `Json.pretty` indents by two blanks and puts each item and member on a
    line of its own; empty arrays and objects stay on one line.

  Only `"`, `\` and the characters below U+0020 are escaped in strings.
-/

namespace GameConfig.Json

/-- One hexadecimal digit, in lower case. -/
def hexDigit (n : Nat) : Char := Nat.digitChar n

/-- A character inside a string literal. -/
def escapeChar (c : Char) : List Char :=
  if c = '"' then ['\\', '"']
  else if c = '\\' then ['\\', '\\']
  else if c = '\n' then ['\\', 'n']
  else if c = '\t' then ['\\', 't']
  else if c = '\r' then ['\\', 'r']
  else if c.toNat = 8 then ['\\', 'b']
  else if c.toNat = 12 then ['\\', 'f']
  else if c.toNat < 32 then
    ['\\', 'u', '0', '0', hexDigit (c.toNat / 16), hexDigit (c.toNat % 16)]
  else [c]

/-- A string literal. -/
def quoted (s : String) : List Char := '"' :: (s.toList.flatMap escapeChar ++ ['"'])

/-- A number literal. -/
def Number.chars : Number → List Char
  | .int i => (integerText i).toList
  | .double x => x.jsonChars

/-- The literal of a truth value. -/
def boolChars (b : Bool) : List Char :=
  if b then ['t', 'r', 'u', 'e'] else ['f', 'a', 'l', 's', 'e']

def nullChars : List Char := ['n', 'u', 'l', 'l']

mutual

/-- The text of a value, without white space. -/
def compactChars : Json → List Char
  | .null => nullChars
  | .bool b => boolChars b
  | .number n => n.chars
  | .string s => quoted s
  | .array [] => ['[', ']']
  | .array (x :: xs) => '[' :: (compactChars x ++ compactItems xs)
  | .object [] => ['\x7b', '\x7d']
  | .object ((k, v) :: ms) => '\x7b' :: (quoted k ++ ':' :: compactChars v ++ compactMembers ms)

/-- The further items of an array, up to its end. -/
def compactItems : List Json → List Char
  | [] => [']']
  | x :: xs => ',' :: (compactChars x ++ compactItems xs)

/-- The further members of an object, up to its end. -/
def compactMembers : List (String × Json) → List Char
  | [] => ['\x7d']
  | (k, v) :: ms => ',' :: (quoted k ++ ':' :: compactChars v ++ compactMembers ms)

end

/-- The text of a value, without white space. -/
def compact (j : Json) : String := String.ofList j.compactChars

/-- A line break and the indent of a depth. -/
def lineBreak (depth : Nat) : List Char := '\n' :: List.replicate (2 * depth) ' '

mutual

/-- The indented text of a value at a depth. -/
def prettyChars (depth : Nat) : Json → List Char
  | .null => nullChars
  | .bool b => boolChars b
  | .number n => n.chars
  | .string s => quoted s
  | .array [] => ['[', ']']
  | .array (x :: xs) =>
    '[' :: (lineBreak (depth + 1) ++ prettyChars (depth + 1) x ++ prettyItems depth xs)
  | .object [] => ['\x7b', '\x7d']
  | .object ((k, v) :: ms) =>
    '\x7b' :: (lineBreak (depth + 1) ++ quoted k ++ ':' :: ' ' :: prettyChars (depth + 1) v ++
      prettyMembers depth ms)

/-- The further items of an array at a depth, up to its end. -/
def prettyItems (depth : Nat) : List Json → List Char
  | [] => lineBreak depth ++ [']']
  | x :: xs =>
    ',' :: (lineBreak (depth + 1) ++ prettyChars (depth + 1) x ++ prettyItems depth xs)

/-- The further members of an object at a depth, up to its end. -/
def prettyMembers (depth : Nat) : List (String × Json) → List Char
  | [] => lineBreak depth ++ ['\x7d']
  | (k, v) :: ms =>
    ',' :: (lineBreak (depth + 1) ++ quoted k ++ ':' :: ' ' :: prettyChars (depth + 1) v ++
      prettyMembers depth ms)

end

/-- The indented text of a value. -/
def pretty (j : Json) : String := String.ofList (j.prettyChars 0)

end GameConfig.Json
