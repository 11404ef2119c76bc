import IdlGen.Generate.Backend
import IdlGen.Generate.Output
import IdlGen.View

/-!
# Jobs

What a generator entry asks of the template backend, after its configuration has been checked: a
template for a model, rendered once for the whole model or once for each declaration of a kind.
-/

namespace IdlGen

/-- The kinds of declarations that a template can be rendered for. -/
inductive DeclKind where
  | struct | union | enum | service
deriving DecidableEq, Repr

namespace DeclKind

/-- The name of the kind in specs and in templates. -/
def key : DeclKind → String
  | struct => "struct"
  | union => "union"
  | enum => "enum"
  | service => "service"

def ofKey? (key : String) : Option DeclKind :=
  [struct, union, enum, service].find? (·.key = key)

/-- The declarations of a kind, by name, as templates see them. -/
def declarations (k : DeclKind) (m : Model) : List (String × Tree) :=
  let viewed (view? : Ty → Option Tree) (t : Ty) := (view? t).map (t.name, ·)
  match k with
  | struct => (m.structs.filter (!·.isUnion)).filterMap (viewed View.record?)
  | union => (m.structs.filter (·.isUnion)).filterMap (viewed View.record?)
  | enum => m.enums.filterMap (viewed View.enumeration?)
  | service => m.services.map fun s => (s.name, View.service s)

end DeclKind

/-- What a template is rendered for. -/
inductive Iteration where
  | whole (fileName : String)
  | each (kind : DeclKind)
deriving DecidableEq, Repr

/-- How messages name what a template is rendered for. -/
def Iteration.key : Iteration → String
  | whole _ => "model"
  | each kind => kind.key

structure Job where
  id : String
  config : Section
  options : Section
  model : SourceRef
  template : SourceRef
  iteration : Iteration

/-- A file to write, and what it is written for. -/
structure OutputFile where
  baseName : String
  fileName : String
  item : Section
deriving Repr

/-- Puts what only the rendering of the file sees into a context, over what the file before left
there. -/
def OutputFile.into (o : OutputFile) (context : Section) : Section :=
  let context := (context.overlay o.item).insert "filename" (.str o.fileName)
  context.insert "base_name" (.str o.baseName)

namespace Job

/-- Whether a charset is a spelling of UTF-8. -/
def isUtf8 (charset : String) : Bool :=
  (charset.toList.filter fun c => c ≠ '-' && c ≠ '_').map Char.toUpper = ['U', 'T', 'F', '8']

/-- The declarations that a mode stands for: one kind, or none of them. -/
def mode? (mode : String) : Except ConfigFault (Option DeclKind) :=
  if mode = "none" then .ok none
  else
    match DeclKind.ofKey? mode with
    | some kind => .ok (some kind)
    | none => .error (.badIteration mode)

/-- Refuses a reference that leads nowhere. -/
def required (fault : ConfigFault) (r : SourceRef) : Except ConfigFault SourceRef :=
  if r = .nowhere then .error fault else .ok r

/-- Refuses a charset that is no spelling of UTF-8. -/
def checkCharset (charset : String) : Except ConfigFault Unit :=
  if isUtf8 charset then .ok () else .error (.badCharset charset)

/-- What a template is rendered for. The whole model needs a file name. -/
def iteration? (mode : Option DeclKind) (fileName : Option String) :
    Except ConfigFault Iteration :=
  match mode, fileName with
  | some kind, _ => .ok (.each kind)
  | none, some fileName => .ok (.whole fileName)
  | none, none => .error .noFileName

/-- Checks the configuration of an entry. -/
def check (config : Section) (id : String) : Except ConfigFault Job := do
  let options := config.sub "options"
  let model ← required .noModelFile (.resolve none none (options.text? "model_file"))
  let template ← required .noTemplate (.resolve (options.text? "base_input_dir")
    (options.text? "input_dir") (config.text? "template"))
  let mode ← mode? (config.textOr "iterate" "none")
  checkCharset (options.textOr "output_charset" "UTF-8")
  let iteration ← iteration? mode (config.text? "filename")
  return ⟨id, config, options, model, template, iteration⟩

/-- The file name without what follows its last point, unless nothing stands before that. -/
def stem (fileName : String) : String :=
  match (fileName.toList.reverse.dropWhile (· ≠ '.')) with
  | _ :: c :: rest => String.ofList (c :: rest).reverse
  | _ => fileName

/-- The files to write for a model, in order. -/
def outputs (j : Job) (m : Model) : List OutputFile :=
  match j.iteration with
  | .whole fileName => [⟨stem fileName, fileName, []⟩]
  | .each kind =>
    let naming := FileNaming.ofConfig j.config j.options
    (kind.declarations m).map fun (name, view) =>
      let base := naming.baseName name
      ⟨base, naming.fileName base, [(kind.key, view)]⟩

/-- What the rendering of every file sees. Views keep the order of their members; what comes from
the configuration is sorted by key. -/
def context (j : Job) (m : Model) (helpers : Section) : Section :=
  [("model", View.model m), ("params", .sorted (.object (j.config.sub "params"))),
   ("helpers", .sorted (.object helpers))]

end Job

end IdlGen
