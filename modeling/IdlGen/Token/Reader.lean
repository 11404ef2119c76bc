import IdlGen.SourceError
import IdlGen.Token.Lexeme
import IdlGen.Token.Parsed

/-!
# Reading tokens

What the rules of a grammar do with the tokens ahead: look at the first one, take it, or refuse the
file at its place. Past the last token every rule sees the end of the text.
-/

namespace IdlGen

/-- The file under the reader, for errors, and its end. -/
structure Reader where
  file : String
  eof : Token

/-- Cuts a file into tokens. -/
def tokenizeFile (rules : LexRules) (file text : String) : Except SourceError TokenList :=
  match tokenize rules text with
  | .ok tokens => .ok tokens
  | .error e => .error (.parse file e.pos (.unlexable e.text))

namespace Reader

variable (r : Reader)

/-- The token ahead. -/
def current (toks : List Token) : Token := toks.headD r.eof

/-- Refuses the file at a token. -/
def fail {α : Type} (tok : Token) (fault : ParseFault) : Except SourceError α :=
  .error (.parse r.file tok.pos fault)

/-- Refuses the token ahead where something else has to stand. -/
def expected {α : Type} (what : Expected) (toks : List Token) : Except SourceError α :=
  r.fail (r.current toks) (.expected what (r.current toks).text)

/-- Refuses a token. -/
def unexpected {α : Type} (tok : Token) : Except SourceError α :=
  r.fail tok (if tok.kind = .eof then .unexpectedEnd else .unexpectedToken tok.text)

/-- Attaches a token's place to an error of the model. -/
def blame {α : Type} (tok : Token) : Except ModelError α → Except SourceError α
  | .ok a => .ok a
  | .error e => .error (.model r.file tok.pos e)

/-- Attaches a token's place to an error in its spelling. -/
def spelled {α : Type} (tok : Token) : Except SpellingError α → Except SourceError α
  | .ok a => .ok a
  | .error e => r.fail tok (.spelling e)

/-- Takes a token that satisfies `p`. -/
def take (p : Token → Bool) (what : Expected) (toks : List Token) :
    Except SourceError (Parsed toks Token) :=
  match toks with
  | [] => r.expected what []
  | t :: rest => if p t then .ok (.next t) else r.expected what (t :: rest)

/-- Takes the token `text`. -/
def expect (text : String) (toks : List Token) : Except SourceError (Parsed toks Token) :=
  r.take (·.isText text) (.text text) toks

end Reader

/-- Passes over the token ahead if it satisfies `p`. -/
def skipIf? (p : Token → Bool) : (toks : List Token) → Option (Later toks)
  | [] => none
  | t :: rest => if p t then some ⟨rest, by simp⟩ else none

/-- Passes over the token `text`. -/
def skip? (text : String) (toks : List Token) : Option (Later toks) :=
  skipIf? (·.isText text) toks

/-- Passes over a token that satisfies `p`, if there is one. -/
def skipOptional (p : Token → Bool) (toks : List Token) : NotBefore toks :=
  match skipIf? p toks with
  | some later => later.notBefore
  | none => .all

end IdlGen
