import IdlGen.Decimal.Read
import IdlGen.Model.Basic
import IdlGen.Token.Reader

/-!
# The grammar of literals

Scalars are single tokens. Lists and maps are in brackets and braces, with an optional comma or
semicolon after each item. A name stands for a constant or an element of an enumeration.
-/

namespace IdlGen.Idl

/-- Passes over an optional comma or semicolon. -/
def skipSeparator (toks : List Token) : NotBefore toks :=
  skipOptional (fun t => t.isText "," || t.isText ";") toks

/-- The literal that a word stands for. -/
def wordLiteral (r : Reader) (lookup : String → Option Symbol) (t : Token) :
    Except SourceError Literal :=
  match t.text with
  | "true" => .ok (.bool true)
  | "false" => .ok (.bool false)
  | "null" => .ok .null
  | name =>
    match lookup name with
    | some (.const c) => .ok (.const c)
    | some (.element e) => .ok (.enum e)
    | some other => r.fail t (.notAConstant name other.kind)
    | none => r.fail t (.unknownConstant name)

/-- The literal that a single token stands for, if it is no bracket or brace. -/
def scalarLiteral (r : Reader) (lookup : String → Option Symbol) (t : Token) :
    Except SourceError Literal :=
  match t.kind with
  | .integer => (r.spelled t (Spelling.decodeInteger .w64 t.text)).map .int
  | .double =>
    match Decimal.read? t.text.toList with
    | some d => .ok (.double d)
    | none => r.fail t (.malformedDouble t.text)
  | .string => (r.spelled t (Spelling.decodeString t.text)).map .str
  | .char => (r.spelled t (Spelling.decodeChar t.text)).map .char
  | .word => wordLiteral r lookup t
  | _ => r.unexpected t

mutual

/-- A literal. Names are looked up by `lookup`. -/
def literal (r : Reader) (lookup : String → Option Symbol) (toks : List Token) :
    Except SourceError (Parsed toks Literal) :=
  match toks with
  | [] => r.unexpected r.eof
  | t :: rest =>
    if t.isMark "[" then do
      let ⟨items, rest, _⟩ ← literalItems r lookup rest
      .ok ⟨.list items, rest, by simp; omega⟩
    else if t.isMark "\x7b" then do
      let ⟨entries, rest, _⟩ ← literalEntries r lookup rest
      .ok ⟨.map entries, rest, by simp; omega⟩
    else do
      let lit ← scalarLiteral r lookup t
      .ok (.next lit)
termination_by 3 * toks.length

/-- The items up to the closing bracket. -/
def literalItems (r : Reader) (lookup : String → Option Symbol) (toks : List Token) :
    Except SourceError (Parsed toks (List Literal)) :=
  match skip? "]" toks with
  | some ⟨rest, h⟩ => .ok ⟨[], rest, h⟩
  | none => do
    let ⟨item, afterItem, _⟩ ← literal r lookup toks
    let ⟨next, _⟩ := skipSeparator afterItem
    let ⟨items, rest, _⟩ ← literalItems r lookup next
    .ok ⟨item :: items, rest, by omega⟩
termination_by 3 * toks.length + 1

/-- A key, a colon and a value. -/
def literalEntry (r : Reader) (lookup : String → Option Symbol) (toks : List Token) :
    Except SourceError (Parsed toks (Literal × Literal)) := do
  let key ← literal r lookup toks
  let colon ← r.expect ":" key.rest
  let value ← literal r lookup colon.rest
  .ok (key.andThen (colon.andThen (value.giving (key.value, value.value))))
termination_by 3 * toks.length + 1
decreasing_by
  · omega
  · have keyShorter := key.shorter
    have colonShorter := colon.shorter
    omega

/-- The entries up to the closing brace. -/
def literalEntries (r : Reader) (lookup : String → Option Symbol) (toks : List Token) :
    Except SourceError (Parsed toks (List (Literal × Literal))) :=
  match skip? "\x7d" toks with
  | some ⟨rest, h⟩ => .ok ⟨[], rest, h⟩
  | none => do
    let ⟨entry, afterEntry, _⟩ ← literalEntry r lookup toks
    let ⟨next, _⟩ := skipSeparator afterEntry
    let ⟨entries, rest, _⟩ ← literalEntries r lookup next
    .ok ⟨entry :: entries, rest, by omega⟩
termination_by 3 * toks.length + 2

end

end IdlGen.Idl
