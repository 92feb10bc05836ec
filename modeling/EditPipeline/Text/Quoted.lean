import EditPipeline.Text.Shapeless

/-!
# Strings quoted in messages

A message shows a string between quotes, on one line and with nothing invisible
in it: the quote, the backslash and the usual control characters are escaped by
a letter, and every other character without a shape of its own is written by its
code point.
-/

namespace EditPipeline.Text

/-- A code point in lower-case hexadecimal digits. -/
def codePoint (c : Char) : List Char := Nat.toDigits 16 c.toNat

/-- How a character stands in a quoted string. -/
def quotedChar (c : Char) : List Char :=
  if c = '"' then ['\\', '"']
  else if c = '\\' then ['\\', '\\']
  else if c = '\x00' then ['\\', '0']
  else if c = '\t' then ['\\', 't']
  else if c = '\n' then ['\\', 'n']
  else if c = '\r' then ['\\', 'r']
  else if isShapeless c then
    '\\' :: 'u' :: '\x7b' :: codePoint c ++ ['\x7d']
  else [c]

/-- The string between quotes. -/
def quoted (s : String) : String :=
  String.ofList ('"' :: s.toList.flatMap quotedChar ++ ['"'])

end EditPipeline.Text
