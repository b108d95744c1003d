import StreamTyping.Text.Unprintable

/-!
# Strings in messages

`shown` writes a string between quotes for a message: quotes, backslashes and
the usual control characters as short escapes, characters without a shape of
their own by number, and all others as they are.
-/

namespace StreamTyping

/-- A character of a string in a message. -/
def shownChar (c : Char) : List Char :=
  if c = '\x00' then ['\\', '0']
  else if c = '\t' then ['\\', 't']
  else if c = '\r' then ['\\', 'r']
  else if c = '\n' then ['\\', 'n']
  else if c = '"' then ['\\', '"']
  else if c = '\\' then ['\\', '\\']
  else if isUnprintable c then
    ['\\', 'u', '\x7b'] ++ Nat.toDigits 16 c.toNat ++ ['\x7d']
  else [c]

/-- A string between quotes, as messages show it. -/
def shown (s : String) : String :=
  String.ofList ('"' :: (s.toList.flatMap shownChar ++ ['"']))

end StreamTyping
