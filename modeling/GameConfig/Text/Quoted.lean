import GameConfig.Number.Printer
import GameConfig.Text.Hidden

/-
  Texts quoted for messages.

  Between double quotes, quotes and backslashes are escaped, the usual control
  characters have their letters, and hidden characters are written as their
  code point in braces.
-/

namespace GameConfig.Text

/-- A character inside quotes. -/
def quoteChar (c : Char) : List Char :=
  if c = '"' then ['\\', '"']
  else if c = '\\' then ['\\', '\\']
  else if c = '\n' then ['\\', 'n']
  else if c = '\r' then ['\\', 'r']
  else if c = '\t' then ['\\', 't']
  else if c.toNat = 0 then ['\\', '0']
  else if isHidden c then
    '\\' :: 'u' :: '\x7b' :: (Nat.toDigits 16 c.toNat ++ ['\x7d'])
  else [c]

/-- A text in quotes. -/
def quoted (s : String) : String :=
  String.ofList ('"' :: (s.toList.flatMap quoteChar ++ ['"']))

end GameConfig.Text
