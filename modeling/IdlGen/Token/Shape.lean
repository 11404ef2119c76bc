import IdlGen.Text.Blank
import IdlGen.Text.Digit

/-!
# Shapes of lexemes

Each shape is a function that says how many characters at the front of a text belong to one lexeme;
zero means that none starts there.
-/

namespace IdlGen.Shape

/-- The number of characters in front that satisfy `p`. -/
def run (p : Char → Bool) (cs : List Char) : Nat := (cs.takeWhile p).length

def blanks : List Char → Nat := run Text.isBlank

/-- The number of characters before the first comment end. -/
def beforeClose? : List Char → Option Nat
  | '*' :: '/' :: _ => some 0
  | _ :: rest => (beforeClose? rest).map (· + 1)
  | [] => none

/-- A documentation comment: its end mark comes after the second star. -/
def docComment : List Char → Nat
  | '/' :: '*' :: '*' :: rest =>
    match beforeClose? rest with
    | some n => 3 + n + 2
    | none => 0
  | _ => 0

/-- A comment up to the first end mark after its opening. -/
def blockComment : List Char → Nat
  | '/' :: '*' :: rest =>
    match beforeClose? rest with
    | some n => 2 + n + 2
    | none => 0
  | _ => 0

/-- A comment up to the end of the line. -/
def lineComment : List Char → Nat
  | '/' :: '/' :: rest => 2 + run (· ≠ '\n') rest
  | '#' :: rest => 1 + run (· ≠ '\n') rest
  | _ => 0

def sign : List Char → Nat
  | '+' :: _ => 1
  | '-' :: _ => 1
  | _ => 0

def digits : List Char → Nat := run Text.isDigit

/-- The exponent of a number, with its mark. -/
def exponent : List Char → Nat
  | c :: rest =>
    if c = 'e' || c = 'E' then
      let s := sign rest
      let d := digits (rest.drop s)
      if d = 0 then 0 else 1 + s + d
    else 0
  | [] => 0

/-- A number with a point or an exponent or both. -/
def double (cs : List Char) : Nat :=
  let s := sign cs
  let body := cs.drop s
  let whole := digits body
  match body.drop whole with
  | '.' :: rest =>
    let part := digits rest
    if whole = 0 && part = 0 then 0 else s + whole + 1 + part + exponent (rest.drop part)
  | rest =>
    let e := exponent rest
    if whole = 0 || e = 0 then 0 else s + whole + e

/-- The hexadecimal digits after `0x`, with the `0x`. -/
def hexadecimal : List Char → Nat
  | '0' :: x :: rest =>
    let d := run Text.isHexDigit rest
    if (x = 'x' || x = 'X') && d ≠ 0 then 2 + d else 0
  | _ => 0

def integer (cs : List Char) : Nat :=
  let s := sign cs
  let body := cs.drop s
  let h := hexadecimal body
  let n := if h = 0 then digits body else h
  if n = 0 then 0 else s + n

/-- The characters of a quoted text up to and with the closing mark. A line feed cannot stand in it,
not even after a backslash. -/
def closing? (mark : Char) : List Char → Option Nat
  | [] => none
  | c :: rest =>
    if c = mark then some 1
    else if c = '\n' then none
    else if c = '\\' then
      match rest with
      | [] => none
      | d :: rest => if d = '\n' then none else (closing? mark rest).map (· + 2)
    else (closing? mark rest).map (· + 1)

/-- A text between two marks. -/
def quoted (mark : Char) : List Char → Nat
  | c :: rest => if c = mark then ((closing? mark rest).map (· + 1)).getD 0 else 0
  | [] => 0

def isNameStart (c : Char) : Bool :=
  ('a' ≤ c && c ≤ 'z') || ('A' ≤ c && c ≤ 'Z') || c = '_'

def isNameChar (c : Char) : Bool := isNameStart c || ('0' ≤ c && c ≤ '9')

/-- What follows the first character of a name: name characters, and points that a name follows. -/
def nameTail : List Char → Nat
  | [] => 0
  | c :: rest =>
    if isNameChar c then 1 + nameTail rest
    else if c = '.' then
      match rest with
      | d :: rest => if isNameStart d then 2 + nameTail rest else 0
      | [] => 0
    else 0

/-- A name, possibly of several parts joined by points. -/
def dottedName : List Char → Nat
  | c :: rest => if isNameStart c then 1 + nameTail rest else 0
  | [] => 0

/-- Whether a text is one name without points. -/
def isIdentifier : List Char → Bool
  | [] => false
  | c :: rest => isNameStart c && rest.all isNameChar

/-- One character out of `marks`. -/
def mark (marks : List Char) : List Char → Nat
  | c :: _ => if marks.contains c then 1 else 0
  | [] => 0

end IdlGen.Shape
