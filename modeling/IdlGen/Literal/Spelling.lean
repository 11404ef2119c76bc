import IdlGen.Integer

/-!
# How literals are spelled

The text of a string, character or integer token, and what it stands for. A backslash in a string
or character stands for nothing by itself: it takes one of eight letters after it.
-/

namespace IdlGen

/-- Why the text of a literal has no meaning. -/
inductive SpellingError where
  | unsupportedEscape (letter : Char) (image : String)
  | trailingBackslash (image : String)
  | malformedChar (image : String)
  | malformedInteger (image : String)
  | integerOutOfRange (width : IntWidth) (image : String)
deriving DecidableEq, Repr

def SpellingError.message : SpellingError → String
  | unsupportedEscape letter image =>
    s!"Invalid string literal (unsupported escape sequence \\{letter}): {image}"
  | trailingBackslash image => s!"Invalid string literal (trailing \\): {image}"
  | malformedChar image => s!"Invalid char literal: {image}"
  | malformedInteger image => s!"Invalid integer literal: {image}"
  | integerOutOfRange width image => s!"Value out of range of {width.literalName} ({image})"

namespace Spelling

/-- The character that an escaped letter stands for. -/
def unescape? : Char → Option Char
  | 'n' => some '\n'
  | 'r' => some '\r'
  | 't' => some '\t'
  | 'f' => some '\x0c'
  | 'b' => some '\x08'
  | '\\' => some '\\'
  | '"' => some '"'
  | '\'' => some '\''
  | _ => none

/-- What stands between the marks, or everything when the text is not inside a pair of them. -/
def stripMarks (mark : Char) (cs : List Char) : List Char :=
  if 2 ≤ cs.length && cs.head? = some mark && cs.getLast? = some mark then
    (cs.drop 1).dropLast
  else cs

/-- Resolves the escapes of a string body. `image` is the whole literal, for messages. -/
def decodeBody (image : String) : List Char → Except SpellingError (List Char)
  | [] => .ok []
  | '\\' :: [] => .error (.trailingBackslash image)
  | '\\' :: letter :: rest =>
    match unescape? letter with
    | some c => (decodeBody image rest).map (c :: ·)
    | none => .error (.unsupportedEscape letter image)
  | c :: rest => (decodeBody image rest).map (c :: ·)

/-- The text that a string literal stands for. -/
def decodeString (image : String) : Except SpellingError String :=
  (decodeBody image (stripMarks '"' image.toList)).map String.ofList

/-- The character that a character literal stands for: one character or one escape. -/
def decodeChar (image : String) : Except SpellingError Char :=
  let found := match stripMarks '\'' image.toList with
    | [c] => if c = '\\' then none else some c
    | [mark, letter] => if mark = '\\' then unescape? letter else none
    | _ => none
  match found with
  | some c => .ok c
  | none => .error (.malformedChar image)

/-- The number that an integer literal stands for. -/
def decodeInteger (w : IntWidth) (image : String) : Except SpellingError Int :=
  match Integer.read w image.toList with
  | .ok n => .ok n
  | .error .malformed => .error (.malformedInteger image)
  | .error .outOfRange => .error (.integerOutOfRange w image)

end Spelling

end IdlGen
