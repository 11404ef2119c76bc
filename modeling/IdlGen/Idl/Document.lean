import IdlGen.Idl.Declaration

/-!
# The grammar of definition files

A file is a sequence of declarations with an optional comma or semicolon after each. An include
loads the model it names unless that model is in the set already; a model that is still being built
cannot be included.
-/

namespace IdlGen.Idl

/-- How the model behind a reference gets into the set. -/
abbrev Loader := SourceRef → LoadM Unit

/-- `include "path"`, in a file that is at `origin`. -/
def includeDecl (r : Reader) (origin : SourceRef) (load : Loader) (m : Model)
    (toks : List Token) : LoadM (Parsed toks Model) := do
  let keyword ← dottedName r toks
  let pathToken ← r.take (·.kind = .string) .includePath keyword.rest
  let path ← r.spelled pathToken.value (Spelling.decodeString pathToken.value.text)
  let source := origin.parent.child path
  match source.modelName? with
  | none => r.fail pathToken.value (.badIncludePath path)
  | some name => do
    let s ← LoadM.getSet
    if s.isPending name then
      let known : Except ModelError Unit := .error (.circularInclude name)
      r.blame pathToken.value known
    if !s.isLoaded name then
      LoadM.tell (.includes r.file source)
      load source
    return keyword.andThen (pathToken.giving (m.addInclude name))

/-- One declaration. -/
def declaration (r : Reader) (origin : SourceRef) (load : Loader) (m : Model)
    (toks : List Token) : LoadM (Parsed toks Model) :=
  let t := r.current toks
  if t.kind ≠ .word then r.unexpected t
  else
    match t.text with
    | "include" => includeDecl r origin load m toks
    | "namespace" => namespaceDecl r m toks
    | "const" => constDecl r m toks
    | "enum" => enumDecl r m toks
    | "struct" => recordDecl r m .struct toks
    | "union" => recordDecl r m .union toks
    | "exception" => recordDecl r m .exception toks
    | "service" => serviceDecl r m toks
    | _ => r.unexpected t

/-- All declarations of a file, added to those read before. -/
def document (r : Reader) (origin : SourceRef) (load : Loader) (m : Model) (toks : List Token) :
    LoadM Model :=
  match toks with
  | [] => return m
  | t :: rest => do
    let ⟨m, afterDeclaration, _⟩ ← declaration r origin load m (t :: rest)
    let ⟨next, _⟩ := skipSeparator afterDeclaration
    document r origin load m next
termination_by toks.length
decreasing_by simp_all; omega

end IdlGen.Idl
