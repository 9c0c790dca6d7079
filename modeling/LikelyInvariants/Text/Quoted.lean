import LikelyInvariants.Platform.Character.Printable

/-!
# Quoted text

A string value is shown between double quotes. Quotes and backslashes inside are preceded by a
backslash, the common control characters have a letter, and every other character that does not
print as itself is written by its code point in hexadecimal. Each character's written form is
fixed, so no bare double quote can stand inside the quotes.
-/

namespace LikelyInvariants.Quoted

/-- The written form of one character. -/
def escape (c : Char) : List Char :=
  if c = '"' then ['\\', '"']
  else if c = '\\' then ['\\', '\\']
  else if c = '\n' then ['\\', 'n']
  else if c = '\r' then ['\\', 'r']
  else if c = '\t' then ['\\', 't']
  else if c = '\x00' then ['\\', '0']
  else if Printable.isPrintable c then [c]
  else '\\' :: 'u' :: '\x7b' :: Nat.toDigits 16 c.toNat ++ ['\x7d']

/-- The text between double quotes, with every character in its written form. -/
def quote (s : String) : String :=
  String.ofList ('"' :: s.toList.flatMap escape ++ ['"'])

end LikelyInvariants.Quoted
