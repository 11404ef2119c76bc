/-!
# Quoted source text

Messages cite source text in double quotes with the escapes of a JSON string: five controls by
letter, the other controls by four hexadecimal digits, nothing else but the quote and the backslash.
-/

namespace IdlGen.Text

/-- The letter that stands for a control character after a backslash. -/
def controlLetter? (c : Char) : Option Char :=
  match c.toNat with
  | 0x08 => some 'b'
  | 0x09 => some 't'
  | 0x0A => some 'n'
  | 0x0C => some 'f'
  | 0x0D => some 'r'
  | _ => none

/-- One character of a quoted text. -/
def quoteChar (c : Char) : List Char :=
  if c = '"' || c = '\\' then ['\\', c]
  else if c.toNat < 0x20 then
    match controlLetter? c with
    | some letter => ['\\', letter]
    | none =>
      ['\\', 'u', '0', '0', (Nat.digitChar (c.toNat / 16)), (Nat.digitChar (c.toNat % 16))]
  else [c]

/-- The characters between the quotes. -/
def quoteBody (cs : List Char) : List Char := cs.flatMap quoteChar

/-- The text in double quotes. -/
def quote (s : String) : String := String.ofList ('"' :: quoteBody s.toList ++ ['"'])

end IdlGen.Text
