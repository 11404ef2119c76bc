import IdlGen.Idl.Field

/-!
# The grammar of declarations

Each rule reads one declaration, starting at its keyword, and gives the model with the declaration
added to it.
-/

namespace IdlGen.Idl

/-- `namespace generator name` -/
def namespaceDecl (r : Reader) (m : Model) (toks : List Token) :
    Except SourceError (Parsed toks Model) := do
  let keyword ← dottedName r toks
  let isGenerator (t : Token) : Bool :=
    t.kind = .word || t.isText Namespace.anyGenerator
  let generator ← r.take isGenerator .generatorName keyword.rest
  let name ← dottedName r generator.rest
  let m ← r.blame generator.value (m.addNamespace ⟨generator.value.text, name.value.text⟩)
  .ok (keyword.andThen (generator.andThen (name.giving m)))

/-- `const type name = literal` -/
def constDecl (r : Reader) (m : Model) (toks : List Token) : LoadM (Parsed toks Model) := do
  let keyword ← dottedName r toks
  let ty ← typeExpr r m none false keyword.rest
  let name ← identifier r ty.rest
  let equals ← r.expect "=" name.rest
  let s ← LoadM.getSet
  let lit ← literal r (m.lookup s) equals.rest
  let c ← r.blame name.value
    (Constant.ofLiteral m.name name.value.text ty.value lit.value keyword.value.docs)
  let m ← r.blame name.value (m.addConst s c)
  return keyword.andThen (ty.andThen (name.andThen (equals.andThen (lit.giving m))))

/-- An element of an enumeration, with its id if it has one, added to those read before. -/
def enumElement (r : Reader) (b : EnumBuilder) (toks : List Token) :
    Except SourceError (Parsed toks EnumBuilder) := do
  let name ← identifier r toks
  match skip? "=" name.rest with
  | some atId => do
    let idToken ← r.take (·.kind = .integer) .integer atId.1
    let id ← r.spelled idToken.value (Spelling.decodeInteger .w32 idToken.value.text)
    let b ← r.blame name.value (b.addWithId name.value.text id)
    .ok (name.andThen (atId.andThen (idToken.giving b)))
  | none => do
    let b ← r.blame name.value (b.add name.value.text)
    .ok (name.giving b)

/-- Elements up to the closing brace, added to those read before. -/
def enumElements (r : Reader) (b : EnumBuilder) (toks : List Token) :
    Except SourceError (Parsed toks EnumBuilder) :=
  match skip? "\x7d" toks with
  | some ⟨rest, h⟩ => .ok ⟨b, rest, h⟩
  | none => do
    let ⟨b, afterElement, _⟩ ← enumElement r b toks
    let ⟨_, afterNotes, _⟩ ← annotations r afterElement
    let ⟨next, _⟩ := skipSeparator afterNotes
    let ⟨b, rest, _⟩ ← enumElements r b next
    .ok ⟨b, rest, by omega⟩
termination_by toks.length

/-- An enumeration. -/
def enumDecl (r : Reader) (m : Model) (toks : List Token) : LoadM (Parsed toks Model) := do
  let ⟨keyword, atName, _⟩ ← dottedName r toks
  let ⟨name, afterName, _⟩ ← identifier r atName
  let b ← LoadM.updateSet (·.newEnum (m.qname name.text) keyword.docs)
  let ⟨_, inside, _⟩ ← r.expect "\x7b" afterName
  let ⟨b, afterBody, _⟩ ← enumElements r b inside
  let ⟨_, rest, _⟩ ← annotations r afterBody
  let (_, m, s) ← r.blame name (m.addEnum (← LoadM.getSet) name.text b.build)
  LoadM.setSet s
  return ⟨m, rest, by omega⟩

/-- The three kinds of record. -/
inductive RecordKind where
  | struct | union | exception
deriving DecidableEq, Repr

/-- A struct, union or exception. -/
def recordDecl (r : Reader) (m : Model) (kind : RecordKind) (toks : List Token) :
    LoadM (Parsed toks Model) := do
  let ⟨keyword, atName, _⟩ ← dottedName r toks
  let ⟨name, afterName, _⟩ ← identifier r atName
  let ⟨_, inside, _⟩ ← r.expect "\x7b" afterName
  let ⟨fields, afterBody, _⟩ ←
    fieldsUntil r m (some (keyword.text, name.text)) "\x7d" ⟨m.qname name.text, []⟩ inside
  let ⟨notes, rest, _⟩ ← annotations r afterBody
  let body : Record Ty := ⟨fields, kind = .union, notes, keyword.docs⟩
  let (_, m, s) ←
    r.blame name (m.addRecord (← LoadM.getSet) (kind = .exception) name.text body)
  LoadM.setSet s
  return ⟨m, rest, by omega⟩

/-- The exceptions of a function, if it has any. -/
def throwsClause (r : Reader) (m : Model) (owner : String) (toks : List Token) :
    LoadM (Scanned toks (FieldSet Ty)) :=
  match skip? "throws" toks with
  | none => return .nothing ⟨owner, []⟩
  | some afterKeyword => do
    let inside ← r.expect "(" afterKeyword.1
    let fields ← fieldsUntil r m none ")" ⟨owner, []⟩ inside.rest
    return .ofParsed (afterKeyword.andThen (inside.andThen fields))

/-- Whether a function is one-way, by the word in front of it. -/
def onewayMark (toks : List Token) : Bool × NotBefore toks :=
  match skip? "oneway" toks with
  | some later => (true, later.notBefore)
  | none => (false, .all)

/-- A function of the service named `service`, with the token of its name. -/
def function (r : Reader) (m : Model) (service : String) (toks : List Token) :
    LoadM (Parsed toks (Token × Function)) := do
  let docs := (r.current toks).docs
  let (oneway, ⟨atResult, _⟩) := onewayMark toks
  let ⟨result, afterResult, _⟩ ← typeExpr r m none true atResult
  let ⟨name, afterName, _⟩ ← identifier r afterResult
  if oneway && !result.isVoid then
    r.fail name (.onewayResult name.text)
  let ⟨_, inside, _⟩ ← r.expect "(" afterName
  let ⟨args, afterArgs, _⟩ ←
    fieldsUntil r m none ")" ⟨Function.argsOwner service name.text, []⟩ inside
  let ⟨throws, afterThrows, _⟩ ←
    throwsClause r m (Function.throwsOwner service name.text) afterArgs
  match throws.fields.find? (!·.type.isException) with
  | some f => r.fail name (.thrownNonException f.type.name)
  | none => pure ()
  let ⟨_, rest, _⟩ ← annotations r afterThrows
  return ⟨(name, ⟨name.text, result, oneway, args, throws, docs⟩), rest, by omega⟩

/-- Functions up to the closing brace, added to those read before. -/
def functions (r : Reader) (m : Model) (body : ServiceBody) (toks : List Token) :
    LoadM (Parsed toks ServiceBody) :=
  match skip? "\x7d" toks with
  | some ⟨rest, h⟩ => return ⟨body, rest, h⟩
  | none => do
    let ⟨(name, f), afterFunction, _⟩ ← function r m body.qname toks
    let body ← r.blame name (body.addFunction f)
    let ⟨next, _⟩ := skipSeparator afterFunction
    let ⟨body, rest, _⟩ ← functions r m body next
    return ⟨body, rest, by omega⟩
termination_by toks.length

/-- The parent of a service, if it has one. -/
def extendsClause (r : Reader) (m : Model) (s : ModelSet) (toks : List Token) :
    Except SourceError (Scanned toks (Option Service)) :=
  match skip? "extends" toks with
  | none => .ok (.nothing none)
  | some atName => do
    let name ← dottedName r atName.1
    let parent ← r.blame name.value (m.lookupService s name.value.text)
    .ok (.ofParsed (atName.andThen (name.giving (some parent))))

/-- A service. -/
def serviceDecl (r : Reader) (m : Model) (toks : List Token) : LoadM (Parsed toks Model) := do
  let ⟨keyword, atName, _⟩ ← dottedName r toks
  let ⟨name, afterName, _⟩ ← identifier r atName
  let ⟨parent, afterParent, _⟩ ← extendsClause r m (← LoadM.getSet) afterName
  let ⟨_, inside, _⟩ ← r.expect "\x7b" afterParent
  let ⟨body, afterBody, _⟩ ←
    functions r m { model := m.name, name := name.text, docs := keyword.docs } inside
  let ⟨_, rest, _⟩ ← annotations r afterBody
  let m ← r.blame name (m.addService (← LoadM.getSet) (Service.make body parent))
  return ⟨m, rest, by omega⟩

end IdlGen.Idl
