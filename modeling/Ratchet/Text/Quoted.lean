import Ratchet.Text.Printable

/-!
# Quoted texts in messages

A message that shows a piece of its input puts it in double quotes, escapes the quote and the
backslash, and writes what would not show by a letter or by its code point.
-/

namespace Ratchet.Text

def byNumber (c : Char) : List Char :=
  ['\\', 'u', '\x7b'] ++ Nat.toDigits 16 c.toNat ++ ['\x7d']

def shown (c : Char) : List Char :=
  if c = '"' then ['\\', '"']
  else if c = '\\' then ['\\', '\\']
  else if c = '\t' then ['\\', 't']
  else if c = '\n' then ['\\', 'n']
  else if c = '\r' then ['\\', 'r']
  else if c = '\x00' then ['\\', '0']
  else if isPrintable c && !isCombining c then [c]
  else byNumber c

def quoted (s : String) : String :=
  String.ofList ('"' :: s.toList.flatMap shown ++ ['"'])

end Ratchet.Text
