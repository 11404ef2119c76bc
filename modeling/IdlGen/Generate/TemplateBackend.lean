import IdlGen.Generate.Job
import IdlGen.Template.Grammar
import IdlGen.Template.Render

/-!
# The template backend

Renders a template for a model and writes what comes out. A file that fails does not keep the others
from being written. The backend works with any template language and any helper sets.
-/

namespace IdlGen

/-- What a template language makes of the name and the text of a template: a function that renders
it with some helpers for a context. -/
abbrev TemplateLanguage :=
  String → String → Except TemplateError (HelperSet → Section → Except TemplateError String)

/-- The template language of this library. -/
def Template.language : TemplateLanguage := fun name text =>
  (Template.parse name text).map fun t => t.render

/-- Helper sets by name. -/
abbrev HelperSets := List (String × HelperSet)

/-- The helper sets that are always registered. -/
def HelperSets.standard : HelperSets := [("naming", .naming)]

/-- The helpers of an entry: what they do together, and the names of their sets by key. -/
structure Installed where
  helpers : HelperSet := {}
  names : Section := []

/-- What the files of an entry are written from. -/
structure Prepared where
  job : Job
  model : Model
  /-- Where the files go. -/
  directory : String
  /-- The name of the template. -/
  template : String
  /-- The names of the helper sets by key. -/
  helpers : Section
  render : Section → Except TemplateError String

namespace TemplateBackend

/-- The text in a member of the helpers section. -/
def helperName : Tree → String
  | .str name => name
  | _ => ""

/-- Installs the helper sets that an entry asks for. One that is not registered is left out. -/
def install (sets : HelperSets) (id : String) : Section → Installed → RunM Installed
  | [], installed => return installed
  | (key, helper) :: rest, installed =>
    match sets.lookup (helperName helper) with
    | some set =>
      install sets id rest
        { helpers := set.append installed.helpers
          names := installed.names.insert key (.str (helperName helper)) }
    | none => do
      RunM.tell (.unknownHelpers helper id)
      install sets id rest installed

/-- Writes what was rendered. -/
def writeRendered (rendered : Except TemplateError String) (path : String) : RunM Unit :=
  match rendered with
  | .error e => throw (.template e)
  | .ok text => RunM.write path text

/-- Writes what was rendered into a directory. Gives the number of failures, one or none. -/
def writeOutput (j : Job) (dir : String) (rendered : Except TemplateError String)
    (o : OutputFile) : RunM Nat := do
  let path := Path.join dir o.fileName
  match ← (writeRendered rendered path).outcome with
  | .ok () => do
    RunM.tell (.wrote j.id path)
    return 0
  | .error e => do
    RunM.tell (.outputFailed j.iteration.key path j.id e)
    return 1

/-- Renders and writes files in order, whatever becomes of each. They share one context, and each
writes its own part of it over that of the file before. Gives the number of failures. -/
def writeOutputs (j : Job) (dir : String) (render : Section → Except TemplateError String) :
    Section → List OutputFile → RunM Nat
  | _, [] => return 0
  | context, o :: rest => do
    let context := o.into context
    let failed ← writeOutput j dir (render context) o
    let others ← writeOutputs j dir render context rest
    return failed + others

/-- Gets ready what the files of an entry are written from: checks the entry, loads the model, makes
the output directory and reads the template. -/
def prepare (language : TemplateLanguage) (sets : HelperSets) (e : Entry) : RunM Prepared := do
  let j ← match Job.check e.config e.id with
    | .ok j => pure j
    | .error fault => throw (.config e.id fault)
  let m ← RunM.mustLoad fun files => loadModel files j.model
  let dir := Output.directory j.options m
  RunM.makeDirectories dir
  let text ← match ← RunM.load fun files => LoadM.readSource files j.template with
    | .ok text => pure text
    | .error cause => throw (.unreadableTemplate j.template.render j.id cause)
  let name := j.template.fileName?.getD "template"
  let installed ← install sets j.id (j.config.sub "helper_classes") {}
  let render ← match language name text with
    | .ok render => pure (render installed.helpers)
    | .error cause => throw (.template cause)
  return ⟨j, m, dir, name, installed.names, render⟩

/-- Carries out an entry: gets everything ready, and writes the files. -/
def generate (language : TemplateLanguage) (sets : HelperSets) (e : Entry) : RunM Unit := do
  let p ← prepare language sets e
  let j := p.job
  let context := j.context p.model p.helpers
  let failures ← writeOutputs j p.directory p.render context (j.outputs p.model)
  RunM.tell (.rendered j.id p.template failures)
  if 0 < failures then throw (.failedOutputs failures j.id)

end TemplateBackend

/-- The template backend for a template language and some helper sets. -/
def templateBackend (language : TemplateLanguage) (sets : HelperSets) : Backend where
  name := "Template-based generator"
  generate := TemplateBackend.generate language sets

/-- The backends that are always registered. -/
def Backends.standard : Backends :=
  Backends.empty.register Backends.defaultName
    (templateBackend Template.language HelperSets.standard)

end IdlGen
