import IdlGen.Token.Reader
import IdlGen.Tree

/-!
# Generation specs as text

A spec is an object whose outer braces may be left out. Members are `key: value`, a comma after a
member or an item is optional, and a bare word stands for itself unless it is `true`, `false` or
`null`. A repeated key keeps its first place and takes its last value.
-/

namespace IdlGen.Spec

/-- The scalar that a bare word stands for. -/
def scalar : String → Tree
  | "true" => .bool true
  | "false" => .bool false
  | "null" => .null
  | word => .str word

/-- Passes over an optional comma. -/
def skipComma (toks : List Token) : NotBefore toks := skipOptional (·.isMark ",") toks

/-- The key of a member. -/
def key (r : Reader) (toks : List Token) : Except SourceError (Parsed toks String) :=
  match toks with
  | [] => r.unexpected r.eof
  | t :: rest =>
    match t.kind with
    | .word => .ok (.next t.text)
    | .string => do
      let text ← r.spelled t (Spelling.decodeString t.text)
      .ok (.next text)
    | _ => r.expected .key (t :: rest)

mutual

/-- A scalar, an object or a list. -/
def value (r : Reader) (toks : List Token) : Except SourceError (Parsed toks Tree) :=
  match toks with
  | [] => r.unexpected r.eof
  | t :: rest =>
    if t.kind = .string then do
      let text ← r.spelled t (Spelling.decodeString t.text)
      .ok ⟨.str text, rest, by simp⟩
    else if t.kind = .word then .ok ⟨scalar t.text, rest, by simp⟩
    else if t.isMark "\x7b" then do
      let ⟨s, rest, h⟩ ← members r [] rest
      .ok ⟨.object s, rest, by simp; omega⟩
    else if t.isMark "[" then do
      let ⟨xs, rest, h⟩ ← items r rest
      .ok ⟨.list xs, rest, by simp; omega⟩
    else r.unexpected t
termination_by (toks.length, 0)

/-- One member with the comma after it. -/
def member (r : Reader) (toks : List Token) : Except SourceError (Parsed toks (String × Tree)) := do
  let ⟨k, afterKey, _⟩ ← key r toks
  let ⟨_, afterColon, _⟩ ← r.take (·.isMark ":") (.text ":") afterKey
  let ⟨v, afterValue, _⟩ ← value r afterColon
  let ⟨rest, _⟩ := skipComma afterValue
  .ok ⟨(k, v), rest, by omega⟩
termination_by (toks.length, 1)

/-- The members up to the closing brace, added to those read before. -/
def members (r : Reader) (s : Section) (toks : List Token) :
    Except SourceError (Parsed toks Section) :=
  match skipIf? (·.isMark "\x7d") toks with
  | some ⟨rest, h⟩ => .ok ⟨s, rest, h⟩
  | none => do
    let ⟨(k, v), next, h⟩ ← member r toks
    let ⟨s, rest, _⟩ ← members r (s.insert k v) next
    .ok ⟨s, rest, by omega⟩
termination_by (toks.length, 2)

/-- The items up to the closing bracket. -/
def items (r : Reader) (toks : List Token) : Except SourceError (Parsed toks (List Tree)) :=
  match skipIf? (·.isMark "]") toks with
  | some ⟨rest, h⟩ => .ok ⟨[], rest, h⟩
  | none => do
    let ⟨x, afterItem, _⟩ ← value r toks
    let ⟨next, _⟩ := skipComma afterItem
    let ⟨xs, rest, _⟩ ← items r next
    .ok ⟨x :: xs, rest, by omega⟩
termination_by (toks.length, 2)

end

/-- Members up to the end of the text, added to those read before. -/
def rootMembers (r : Reader) (s : Section) (toks : List Token) : Except SourceError Section :=
  match toks with
  | [] => .ok s
  | t :: rest => do
    let ⟨(k, v), next, _⟩ ← member r (t :: rest)
    rootMembers r (s.insert k v) next
termination_by toks.length
decreasing_by simp only [List.length_cons] at *; omega

/-- A whole spec. -/
def root (r : Reader) (toks : List Token) : Except SourceError Section :=
  match skipIf? (·.isMark "\x7b") toks with
  | none => rootMembers r [] toks
  | some ⟨inside, _⟩ => do
    let ⟨s, rest, _⟩ ← members r [] inside
    match rest with
    | [] => .ok s
    | t :: _ => r.unexpected t

/-- Reads the text of a spec file. -/
def parse (file text : String) : Except SourceError Section := do
  let tokens ← tokenizeFile .spec file text
  root ⟨file, tokens.eof⟩ tokens.tokens

end IdlGen.Spec
