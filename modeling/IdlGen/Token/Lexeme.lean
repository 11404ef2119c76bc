import IdlGen.Token.Basic
import IdlGen.Token.Shape

/-!
# From text to tokens

A text is cut into lexemes: at each place the first rule whose shape matches wins. Blanks and
comments are lexemes too, so the lexemes of a text spell it out again; tokens are what is left
without them. Two rule lists give two token languages, one for interface definitions and one for
generation specs.
-/

namespace IdlGen

inductive LexemeKind where
  | blank | docComment | blockComment | lineComment
  | token (kind : TokenKind)
deriving DecidableEq, Repr

structure Lexeme where
  kind : LexemeKind
  text : List Char
deriving DecidableEq, Repr

/-- A shape and the class of the lexemes that have it. -/
structure LexRule where
  kind : LexemeKind
  shape : List Char → Nat

/-- Rules in order of precedence. -/
abbrev LexRules := List LexRule

namespace LexRules

/-- The rules for what separates tokens. -/
def layout : LexRules :=
  [⟨.blank, Shape.blanks⟩, ⟨.docComment, Shape.docComment⟩, ⟨.blockComment, Shape.blockComment⟩,
   ⟨.lineComment, Shape.lineComment⟩]

/-- The token language of interface definitions. -/
def idl : LexRules :=
  layout ++
  [⟨.token .double, Shape.double⟩, ⟨.token .integer, Shape.integer⟩,
   ⟨.token .string, Shape.quoted '"'⟩, ⟨.token .char, Shape.quoted '\''⟩,
   ⟨.token .word, Shape.dottedName⟩,
   ⟨.token .punctuation,
    Shape.mark ['\x7b', '\x7d', '(', ')', '<', '>', '[', ']', ',', ';', ':', '=', '*']⟩]

/-- The characters of a word in a generation spec. -/
def isSpecWordChar (c : Char) : Bool :=
  Shape.isNameChar c || ['$', '.', '/', '+', '-'].contains c

/-- The token language of generation specs. -/
def spec : LexRules :=
  layout ++
  [⟨.token .string, Shape.quoted '"'⟩, ⟨.token .word, Shape.run isSpecWordChar⟩,
   ⟨.token .punctuation, Shape.mark ['\x7b', '\x7d', '[', ']', ',', ':']⟩]

/-- The class of the lexeme in front and the number of its characters after the first. -/
def first? (rules : LexRules) (cs : List Char) : Option (LexemeKind × Nat) :=
  rules.findSome? fun rule =>
    match rule.shape cs with
    | 0 => none
    | n + 1 => some (rule.kind, n)

/-- The lexemes in front, and the text from the first place where no rule matches. -/
def scan (rules : LexRules) : List Char → List Lexeme × List Char
  | [] => ([], [])
  | c :: cs =>
    match rules.first? (c :: cs) with
    | none => ([], c :: cs)
    | some (kind, n) =>
      let (lexemes, rest) := scan rules (cs.drop n)
      (⟨kind, c :: cs.take n⟩ :: lexemes, rest)
termination_by cs => cs.length
decreasing_by simp only [List.length_drop, List.length_cons]; omega

/-- The text up to the first place where a rule matches. -/
def unmatched (rules : LexRules) : List Char → List Char
  | [] => []
  | c :: cs => if (rules.first? (c :: cs)).isSome then [] else c :: unmatched rules cs

end LexRules

namespace Token

/-- The tokens among lexemes that start at `pos`, with `docs` pending, and the place after them.
Documentation goes to the next token; of several comments the last one counts. -/
def ofLexemes (pos : Position) (docs : Docs) : List Lexeme → List Token × Position
  | [] => ([], pos)
  | l :: rest =>
    let next := pos.after l.text
    match l.kind with
    | .docComment => ofLexemes next (Docs.ofComment l.text) rest
    | .token kind =>
      let (tokens, stop) := ofLexemes next none rest
      (⟨kind, String.ofList l.text, pos, docs⟩ :: tokens, stop)
    | _ => ofLexemes next docs rest

end Token

/-- Text that is no lexeme, and where it starts. -/
structure LexError where
  text : String
  pos : Position
deriving DecidableEq, Repr

/-- Cuts a text into tokens. -/
def tokenize (rules : LexRules) (text : String) : Except LexError TokenList :=
  let (lexemes, rest) := rules.scan text.toList
  let (tokens, stop) := Token.ofLexemes .start none lexemes
  if rest.isEmpty then .ok ⟨tokens, stop⟩
  else .error ⟨String.ofList (rules.unmatched rest), stop⟩

end IdlGen
