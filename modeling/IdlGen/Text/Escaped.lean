import IdlGen.Text.Printable

/-!
# Texts as messages show them

A text or a character inside a message stands in its own quotes. The quote in use and the backslash
are escaped, four controls have a letter of their own, and every other character that cannot be
read there is written by its code point.
-/

namespace IdlGen.Text

/-- Digits of a number in base 16, small letters. -/
def hexDigits (n : Nat) : List Char := Nat.toDigits 16 n

/-- One character inside the quotes `mark`. -/
def escapeIn (mark c : Char) : List Char :=
  if c = '\x00' then ['\\', '0']
  else if c = '\t' then ['\\', 't']
  else if c = '\r' then ['\\', 'r']
  else if c = '\n' then ['\\', 'n']
  else if c = mark || c = '\\' then ['\\', c]
  else if isPrintable c then [c]
  else ['\\', 'u', '\x7b'] ++ hexDigits c.toNat ++ ['\x7d']

/-- A text in double quotes. -/
def showString (s : String) : String :=
  String.ofList ('"' :: s.toList.flatMap (escapeIn '"') ++ ['"'])

/-- A character in single quotes. -/
def showChar (c : Char) : String :=
  String.ofList ('\'' :: escapeIn '\'' c ++ ['\''])

end IdlGen.Text
