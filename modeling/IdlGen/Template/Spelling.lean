import IdlGen.Decimal.Read
import IdlGen.Tree

/-!
# How literals are spelled in templates

A text between quotes may hold escapes: letters for some characters, or the code of a character in
base 8 or 16. An escape that is not known stands for itself. A number is whole, in base 2, 8, 10 or
16, or it has a point or an exponent; bars may stand between its digits.
-/

namespace IdlGen.Template

/-- The number that digits of a base spell, most significant first. A plus sign may stand before
them. -/
def digits? (base : Nat) (cs : List Char) : Option Nat :=
  let body := if cs.head? = some '+' then cs.drop 1 else cs
  if body.isEmpty then none
  else body.foldlM (fun n c => ((Text.digitValue? 16 c).filter (· < base)).map (base * n + ·)) 0

/-- The character that a letter stands for after a backslash. -/
def escaped? : Char → Option Char
  | 'n' => some '\n'
  | 'r' => some '\r'
  | 't' => some '\t'
  | 'b' => some '\x08'
  | 'f' => some '\x0c'
  | '\\' => some '\\'
  | '/' => some '/'
  | '"' => some '"'
  | '\'' => some '\''
  | _ => none

def isOctal (c : Char) : Bool := '0' ≤ c && c ≤ '7'

/-- The number in the first `n` characters, in base 16. -/
def codeIn? (n : Nat) (cs : List Char) : Option Nat :=
  let code := cs.take n
  if code.length = n then digits? 16 code else none

/-- The character beyond 16 bits that two halves make. -/
def pair? (high low : Nat) : Option Char :=
  if 0xD800 ≤ high && high < 0xDC00 && 0xDC00 ≤ low && low < 0xE000 then
    some (Char.ofNat (0x10000 + (high - 0xD800) * 0x400 + (low - 0xDC00)))
  else none

/-- The character of a code of four digits, and how many characters the code takes. Half of a
character has the other half right behind it. -/
def wide? (cs : List Char) : Option (Char × Nat) := do
  let code ← codeIn? 4 cs
  if 0xD800 ≤ code && code < 0xE000 then
    match cs.drop 4 with
    | '\\' :: 'u' :: rest => do return (← pair? code (← codeIn? 4 rest), 10)
    | _ => none
  else return (Char.ofNat code, 4)

/-- What an escape stands for, and how many characters it takes after its letter. -/
def escape? (letter : Char) (rest : List Char) : Option (List Char × Nat) :=
  match escaped? letter with
  | some c => some ([c], 0)
  | none =>
    if letter = 'u' then (wide? rest).map fun (c, n) => ([c], n)
    else if letter = 'x' then (codeIn? 2 rest).map fun code => ([Char.ofNat code], 2)
    else if isOctal letter then
      let more := (rest.take 2).takeWhile isOctal
      match digits? 8 (letter :: more) with
      | some code => if code < 256 then some ([Char.ofNat code], more.length) else none
      | none => none
    else some (['\\', letter], 0)

/-- What a text with escapes stands for. -/
def unescape? (cs : List Char) : Option (List Char) :=
  match cs with
  | [] => some []
  | '\\' :: letter :: rest =>
    match escape? letter rest with
    | none => none
    | some (image, n) => (unescape? (rest.drop n)).map (image ++ ·)
  | c :: rest => (unescape? rest).map (c :: ·)
termination_by cs.length
decreasing_by all_goals simp only [List.length_cons, List.length_drop]; omega

/-- The part of a number that is being read. -/
inductive NumberPart where
  | whole | based | fraction | exponentMark | exponent
deriving DecidableEq, Repr

/-- The part of a number that the character `c` is in, if it belongs to the number. A point does so
only before a digit, for otherwise it asks for a part of the number. -/
def NumberPart.next? (base : Nat) (part : NumberPart) (c : Char) (rest : List Char) :
    Option NumberPart :=
  if c = '_' then some part
  else if c.isDigit then some (if part = exponentMark then exponent else part)
  else
    match part with
    | whole =>
      if c = '.' then if rest.head?.any Char.isDigit then some fraction else none
      else if c = 'e' || c = 'E' then some exponentMark
      else none
    | based => if base = 16 && Text.isHexDigit c then some based else none
    | fraction => if c = 'e' || c = 'E' then some exponentMark else none
    | exponentMark => if c = '+' || c = '-' then some exponent else none
    | exponent => none

/-- How many characters in front belong to a number, and the part that it ends with. -/
def NumberPart.extent (base : Nat) (part : NumberPart) : List Char → Nat × NumberPart
  | [] => (0, part)
  | c :: rest =>
    match part.next? base c rest with
    | none => (0, part)
    | some part =>
      let (n, last) := extent base part rest
      (n + 1, last)

/-- The base of a number and how many characters say so. -/
def numberBase : List Char → Nat × Nat
  | '0' :: c :: _ =>
    if c = 'b' || c = 'B' then (2, 2)
    else if c = 'o' || c = 'O' then (8, 2)
    else if c = 'x' || c = 'X' then (16, 2)
    else (10, 0)
  | _ => (10, 0)

/-- The whole number that digits spell, which has at most 128 bits. -/
def wholeNumber? (base : Nat) (digits : List Char) : Option Tree :=
  match digits? base digits with
  | some n => if n < Nat.pow 2 128 then some (.int n) else none
  | none => none

/-- The number in front, and how many characters it takes. No bar may stand at its end. -/
def number? (cs : List Char) : Option (Tree × Nat) :=
  let (base, skipped) := numberBase cs
  let body := cs.drop skipped
  let (n, part) := (if base = 10 then NumberPart.whole else .based).extent base body
  let spelled := body.take n
  let digits := spelled.filter (· ≠ '_')
  if spelled.getLast? = some '_' then none
  else
    let value? :=
      if part = .whole || part = .based then wholeNumber? base digits
      else (Decimal.read? digits).map .double
    value?.map fun value => (value, skipped + n)

end IdlGen.Template
