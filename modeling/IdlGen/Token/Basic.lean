import IdlGen.Doc

/-!
# Tokens

A token is a piece of source text with its class, the place where it starts, and the documentation
that stands before it.
-/

namespace IdlGen

/-- A place in a text: lines and columns count from one, columns in characters. -/
structure Position where
  line : Nat
  column : Nat
deriving DecidableEq, Repr, Inhabited

namespace Position

/-- The start of a text. -/
def start : Position := ⟨1, 1⟩

/-- The place after one more character. -/
def step (p : Position) (c : Char) : Position :=
  if c = '\n' then ⟨p.line + 1, 1⟩ else ⟨p.line, p.column + 1⟩

/-- The place after a piece of text. -/
def after (p : Position) (cs : List Char) : Position := cs.foldl step p

end Position

inductive TokenKind where
  | word | integer | double | string | char | punctuation | eof
deriving DecidableEq, Repr

structure Token where
  kind : TokenKind
  text : String
  pos : Position
  docs : Docs
deriving DecidableEq, Repr

namespace Token

/-- Whether the token reads `text` and is no quoted literal. -/
def isText (t : Token) (text : String) : Bool :=
  t.kind ≠ .string && t.kind ≠ .char && t.text = text

/-- Whether the token is the punctuation mark `text`. -/
def isMark (t : Token) (text : String) : Bool :=
  t.kind = .punctuation && t.text = text

/-- The token that stands for the end of the text. -/
def endOfText (pos : Position) : Token := ⟨.eof, "", pos, none⟩

end Token

/-- The tokens of a text and the place where it ends. -/
structure TokenList where
  tokens : List Token
  stop : Position
deriving DecidableEq, Repr

namespace TokenList

/-- The end of the text as a token. -/
def eof (ts : TokenList) : Token := Token.endOfText ts.stop

/-- All tokens, the end of the text last. -/
def toList (ts : TokenList) : List Token := ts.tokens ++ [ts.eof]

end TokenList

end IdlGen
