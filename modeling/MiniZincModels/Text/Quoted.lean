import MiniZincModels.Text.Hidden

/-!
# Quoted text

Text is quoted for messages so that every character can be told: quotes and
backslashes are escaped, line ends and tabs have escapes of their own, and
hidden characters are given by their code points.
-/

namespace MiniZincModels.Text

/-- A character by its code point in hexadecimal. -/
def codePointEscape (c : Char) : List Char :=
  '\\' :: 'u' :: '\x7b' :: Nat.toDigits 16 c.toNat ++ ['\x7d']

/-- A character inside quotes of the given kind. -/
def quotedCharacter (delimiter c : Char) : List Char :=
  if c = '\x00' then ['\\', '0']
  else if c = '\t' then ['\\', 't']
  else if c = '\r' then ['\\', 'r']
  else if c = '\n' then ['\\', 'n']
  else if c = '\\' ∨ c = delimiter then ['\\', c]
  else if isHidden c then codePointEscape c
  else [c]

/-- A text in double quotes. -/
def quote (text : String) : String :=
  String.ofList ('"' :: text.toList.flatMap (quotedCharacter '"') ++ ['"'])

/-- A single character in apostrophes. -/
def quoteCharacter (c : Char) : String :=
  String.ofList ('\'' :: quotedCharacter '\'' c ++ ['\''])

end MiniZincModels.Text
