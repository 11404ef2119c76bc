import IdlGen.Idl.Literal
import IdlGen.Idl.TypeExpr
import IdlGen.Types.Check

/-!
# The grammar of fields

Fields stand in records, argument lists and throws clauses: an id, an optional `required` or
`optional`, a type, a name, an optional default and optional annotations.
-/

namespace IdlGen.Idl

/-- A name without points. -/
def isIdentifier (t : Token) : Bool := t.kind = .word && Shape.isIdentifier t.text.toList

/-- A name without points, as declarations have. -/
def identifier (r : Reader) (toks : List Token) : Except SourceError (Parsed toks Token) :=
  r.take isIdentifier .identifier toks

/-- A name, possibly of several parts. -/
def dottedName (r : Reader) (toks : List Token) : Except SourceError (Parsed toks Token) :=
  r.take (·.kind = .word) .name toks

/-- The text that an annotation gives to its key. -/
def annotationValue (r : Reader) (toks : List Token) : Except SourceError (Parsed toks String) :=
  match toks with
  | [] => r.unexpected r.eof
  | t :: _ =>
    if t.kind = .string then do
      let text ← r.spelled t (Spelling.decodeString t.text)
      .ok (.next text)
    else if t.kind = .word || t.kind = .integer || t.kind = .double then
      .ok (.next t.text)
    else r.unexpected t

/-- Annotations up to the closing parenthesis, added to those read before. -/
def annotationEntries (r : Reader) (acc : Annotations) (toks : List Token) :
    Except SourceError (Parsed toks Annotations) :=
  match skip? ")" toks with
  | some ⟨rest, h⟩ => .ok ⟨acc, rest, h⟩
  | none => do
    let ⟨key, afterKey, _⟩ ← dottedName r toks
    match skip? "=" afterKey with
    | some ⟨atValue, _⟩ => do
      let ⟨value, afterValue, _⟩ ← annotationValue r atValue
      let ⟨next, _⟩ := skipSeparator afterValue
      let ⟨acc, rest, _⟩ ← annotationEntries r (acc.insert key.text value) next
      .ok ⟨acc, rest, by omega⟩
    | none => do
      let ⟨next, _⟩ := skipSeparator afterKey
      let ⟨acc, rest, _⟩ ← annotationEntries r (acc.insert key.text "") next
      .ok ⟨acc, rest, by omega⟩
termination_by toks.length

/-- Annotations in parentheses, if there are any. -/
def annotations (r : Reader) (toks : List Token) :
    Except SourceError (Scanned toks Annotations) :=
  match skip? "(" toks with
  | none => .ok (.nothing [])
  | some inside => do
    let entries ← annotationEntries r [] inside.1
    .ok (.ofParsed (inside.andThen entries))

/-- A default, if there is one. -/
def fieldDefault (r : Reader) (lookup : String → Option Symbol) (toks : List Token) :
    Except SourceError (Scanned toks (Option Literal)) :=
  match skip? "=" toks with
  | none => .ok (.nothing none)
  | some atValue => do
    let lit ← literal r lookup atValue.1
    .ok (.ofParsed (atValue.andThen (lit.giving (some lit.value))))

/-- Whether a field is required, which it is unless it says `optional`. -/
def requiredness (toks : List Token) : Bool × NotBefore toks :=
  match skip? "optional" toks with
  | some later => (false, later.notBefore)
  | none => (true, skipOptional (·.isText "required") toks)

/-- One field, with the token of its id. -/
def field (r : Reader) (m : Model) (declaring : Declaring) (toks : List Token) :
    LoadM (Parsed toks (Token × Field Ty)) := do
  let ⟨idToken, afterId, _⟩ ← r.take (·.kind = .integer) .fieldId toks
  let id ← r.spelled idToken (Spelling.decodeInteger .w16 idToken.text)
  let ⟨_, afterColon, _⟩ ← r.expect ":" afterId
  let (required, ⟨atType, _⟩) := requiredness afterColon
  let ⟨ty, afterType, _⟩ ← typeExpr r m declaring false atType
  let ⟨name, afterName, _⟩ ← identifier r afterType
  let s ← LoadM.getSet
  let ⟨default, afterDefault, _⟩ ← fieldDefault r (m.lookup s) afterName
  let ⟨notes, rest, _⟩ ← annotations r afterDefault
  let f ← r.blame name
    (Field.ofLiteral id name.text ty required default notes idToken.docs)
  return ⟨(idToken, f), rest, by omega⟩

/-- Fields up to the closing mark, added to those read before. -/
def fieldsUntil (r : Reader) (m : Model) (declaring : Declaring) (close : String)
    (acc : FieldSet Ty) (toks : List Token) : LoadM (Parsed toks (FieldSet Ty)) :=
  match skip? close toks with
  | some ⟨rest, h⟩ => return ⟨acc, rest, h⟩
  | none => do
    let ⟨(idToken, f), afterField, _⟩ ← field r m declaring toks
    let acc ← r.blame idToken (acc.add f)
    let ⟨next, _⟩ := skipSeparator afterField
    let ⟨acc, rest, _⟩ ← fieldsUntil r m declaring close acc next
    return ⟨acc, rest, by omega⟩
termination_by toks.length

end IdlGen.Idl
