import IdlGen.Template.Error
import IdlGen.Template.Spelling
import IdlGen.Text.Blank
import IdlGen.Token.Parsed

/-!
# The pieces of a template

A template is cut into plain text, values between double braces and tags between a brace and a
percent sign; comments are dropped. A hyphen just inside a delimiter drops the blanks on its other
side from the text there.
-/

namespace IdlGen.Template

/-- A token of an expression or a tag. -/
inductive Tok where
  | word (text : String)
  | number (value : Tree)
  | str (value : String)
  | mark (text : String)
deriving Repr

inductive Piece where
  | text (content : List Char)
  | value (toks : List Tok)
  | tag (toks : List Tok)
deriving Repr

/-- Whether the character separates tokens. -/
def isGap (c : Char) : Bool := [' ', '\t', '\n', '\x0c', '\r'].contains c

def isWordStart (c : Char) : Bool := c.isAlpha || c = '_'

def isWordPart (c : Char) : Bool := c.isAlphanum || c = '_'

/-- The text up to the closing quote. Its escapes are left as they are. -/
def quoted (quote : Char) : (cs : List Char) → Except TemplateError (Parsed cs (List Char))
  | [] => .error .unclosedText
  | '\\' :: c :: rest =>
    match quoted quote rest with
    | .error e => .error e
    | .ok ⟨text, after, _⟩ =>
      .ok ⟨'\\' :: c :: text, after, by simp only [List.length_cons]; omega⟩
  | c :: rest =>
    if c = quote then .ok ⟨[], rest, by simp⟩
    else
      match quoted quote rest with
      | .error e => .error e
      | .ok ⟨text, after, _⟩ => .ok ⟨c :: text, after, by simp; omega⟩

theorem length_dropWhile_le {α : Type} (p : α → Bool) (xs : List α) :
    (xs.dropWhile p).length ≤ xs.length :=
  (List.dropWhile_suffix p).length_le

theorem length_drop_le {α : Type} (n : Nat) (xs : List α) : (xs.drop n).length ≤ xs.length :=
  (List.drop_suffix n xs).length_le

/-- The token at the front of characters that do not start with a gap. -/
def token (c : Char) (rest : List Char) : Except TemplateError (Parsed (c :: rest) Tok) :=
  if isWordStart c then
    .ok ⟨.word (String.ofList (c :: rest.takeWhile isWordPart)), rest.dropWhile isWordPart,
      Nat.lt_succ_of_le (length_dropWhile_le _ _)⟩
  else if c.isDigit then
    match number? (c :: rest) with
    | none => .error .badNumber
    | some (value, n) =>
      .ok ⟨.number value, rest.drop (n - 1), Nat.lt_succ_of_le (length_drop_le _ _)⟩
  else if c = '"' || c = '\'' then
    match quoted c rest with
    | .error e => .error e
    | .ok read =>
      match unescape? read.value with
      | none => .error .badEscape
      | some text => .ok ((Parsed.next ()).andThen (read.giving (.str (String.ofList text))))
  else
    match c, rest with
    | '=', '=' :: _ => .ok ((Parsed.next ()).andThen (.next (.mark "==")))
    | '!', '=' :: _ => .ok ((Parsed.next ()).andThen (.next (.mark "!=")))
    | c, _ =>
      if ['.', ',', '|', '(', ')', '[', ']'].contains c then .ok (.next (.mark c.toString))
      else .error (.badCharacter c)

/-- Passes over the end of a delimiter, `close` and a brace. Tells whether a hyphen stands before
it. -/
def closing? (close : Char) : (cs : List Char) → Option (Parsed cs Bool)
  | '-' :: c :: '\x7d' :: rest =>
    if c = close then some ⟨true, rest, by simp only [List.length_cons]; omega⟩ else none
  | '+' :: c :: '\x7d' :: rest =>
    if c = close then some ⟨false, rest, by simp only [List.length_cons]; omega⟩ else none
  | c :: '\x7d' :: rest =>
    if c = close then some ⟨false, rest, by simp only [List.length_cons]; omega⟩ else none
  | _ => none

/-- The tokens up to the end of a delimiter, and whether a hyphen stands before it. -/
def inside (close : Char) (cs : List Char) :
    Except TemplateError (Parsed cs (List Tok × Bool)) :=
  match closing? close cs with
  | some ⟨trim, rest, h⟩ => .ok ⟨([], trim), rest, h⟩
  | none =>
    match cs with
    | [] => .error .unclosedTag
    | c :: rest =>
      if isGap c then
        match inside close rest with
        | .error e => .error e
        | .ok ⟨found, after, _⟩ => .ok ⟨found, after, by simp; omega⟩
      else
        match token c rest with
        | .error e => .error e
        | .ok ⟨tok, rest, _⟩ =>
          match inside close rest with
          | .error e => .error e
          | .ok ⟨(toks, trim), after, _⟩ => .ok ⟨(tok :: toks, trim), after, by omega⟩
termination_by cs.length
decreasing_by all_goals simp only [List.length_cons] at *; omega

/-- Passes over the rest of a comment. Tells whether a hyphen stands before its end. -/
def comment : (cs : List Char) → Except TemplateError (Parsed cs Bool)
  | [] => .error .unclosedComment
  | c :: rest =>
    match closing? '#' (c :: rest) with
    | some found => .ok found
    | none =>
      match comment rest with
      | .error e => .error e
      | .ok ⟨trim, after, _⟩ => .ok ⟨trim, after, by simp; omega⟩

/-- Whether a delimiter opens here. -/
def opens : List Char → Bool
  | '\x7b' :: c :: _ => c = '\x7b' || c = '%' || c = '#'
  | _ => false

/-- The text up to the next delimiter, and all from there on. -/
def plain : (cs : List Char) → List Char × NotBefore cs
  | [] => ([], ⟨[], Nat.le_refl _⟩)
  | c :: rest =>
    if opens (c :: rest) then ([], ⟨c :: rest, Nat.le_refl _⟩)
    else
      let (text, ⟨after, h⟩) := plain rest
      (c :: text, ⟨after, Nat.le_succ_of_le h⟩)

/-- Passes over a hyphen, which trims, or a plus sign, which does nothing. -/
def trimMark : (cs : List Char) → Bool × NotBefore cs
  | '-' :: rest => (true, ⟨rest, by simp⟩)
  | '+' :: rest => (false, ⟨rest, by simp⟩)
  | cs => (false, ⟨cs, Nat.le_refl _⟩)

/-- The pieces of a template; `trim` says that blanks in front are dropped. -/
def pieces (trim : Bool) (cs : List Char) : Except TemplateError (List Piece) :=
  let (text, ⟨rest, _⟩) := plain cs
  let text := if trim then Text.trimFront text else text
  match rest with
  | _ :: kind :: after =>
    let (trimBefore, ⟨body, _⟩) := trimMark after
    let text := Piece.text (if trimBefore then Text.trimBack text else text)
    if kind = '#' then
      match comment body with
      | .error e => .error e
      | .ok ⟨trimAfter, next, _⟩ => do .ok (text :: (← pieces trimAfter next))
    else if kind = '%' then
      match inside '%' body with
      | .error e => .error e
      | .ok ⟨(toks, trimAfter), next, _⟩ => do
        .ok (text :: .tag toks :: (← pieces trimAfter next))
    else
      match inside '\x7d' body with
      | .error e => .error e
      | .ok ⟨(toks, trimAfter), next, _⟩ => do
        .ok (text :: .value toks :: (← pieces trimAfter next))
  | _ => .ok [.text text]
termination_by cs.length
decreasing_by all_goals simp_all; omega

/-- Drops a line end from the end of a text: a line feed, then a carriage return, as far as they are
there. -/
def dropLineEnd (cs : List Char) : List Char :=
  let cs := if cs.getLast? = some '\n' then cs.dropLast else cs
  if cs.getLast? = some '\r' then cs.dropLast else cs

end IdlGen.Template
