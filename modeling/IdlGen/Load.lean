import IdlGen.Idl.Document
import IdlGen.Spec.Grammar

/-!
# Loading models and specs

A model is loaded from the file that declares it, or parsed from a given text; the models it
includes are loaded on the way. A model that fails is abandoned, so that its name and its types are
free again, while models that were finished before stay.

Every nested include makes one more name pending, and only names of files and pages of the tree can
be read, so includes nest at most once more deeply than there are nodes and pages in the tree.
-/

namespace IdlGen

/-- The name of a source in messages about its contents. -/
def SourceRef.label (origin : SourceRef) (otherwise : String) : String :=
  match origin with
  | .nowhere => otherwise
  | _ => origin.render

namespace Load

open Idl

/-- Reads a text into a model. `lexFile` is the name of the file in errors of its tokens. -/
def parseInto (load : Loader) (m : Model) (lexFile file text : String) (origin : SourceRef) :
    LoadM Model := do
  let tokens ← tokenizeFile .idl lexFile text
  document ⟨file, tokens.eof⟩ origin load m tokens.tokens

/-- Parses a text as the model `name`. -/
def parseWith (load : Loader) (name text : String) (origin : SourceRef) : LoadM Model := do
  match (← LoadM.getSet).create name with
  | .error e => throw (.model origin.render ⟨0, 0⟩ e)
  | .ok (m, s) => do
    LoadM.setSet s
    let file := origin.label name
    tryCatch
      (do
        let m ← parseInto load m file file text origin
        LoadM.updateSet fun s => ((), s.finish m)
        LoadM.tell (.loadedModel name file)
        return m)
      (fun e => do
        LoadM.updateSet fun s => ((), s.abandon name)
        throw e)

/-- Parses a text as a model without a name. -/
def parseAnonymousWith (load : Loader) (text : String) (origin : SourceRef) : LoadM Model := do
  let m ← parseInto load { name := none } origin.render (origin.label "<anonymous>") text origin
  LoadM.updateSet fun s => ((), s.finish m)
  return m

/-- Reads and parses a definition file. -/
def loadWith (load : Loader) (files : FileTree) (source : SourceRef) : LoadM Model := do
  match source.modelName? with
  | none => throw (.unreadable source.render (.unspecified "model file"))
  | some name => do
    let text ← LoadM.readSource files source
    parseWith load name text source

/-- Loads an included file, where includes may nest `depth` times more. -/
def loadInclude (files : FileTree) : Nat → Loader
  | 0, source => do
    -- Out of reach: what can be read at this depth would have a name that is pending already.
    let _ ← LoadM.readSource files source
    throw (.model source.render ⟨0, 0⟩ (.circularInclude source.render))
  | depth + 1, source => do
    let _ ← loadWith (loadInclude files depth) files source

/-- How deeply includes can nest. -/
def maxDepth (files : FileTree) : Nat := files.nodes.length + files.pages.length + 1

/-- How includes are loaded from a tree. -/
def loader (files : FileTree) : Loader := loadInclude files (maxDepth files)

end Load

/-- Loads the model that a definition file declares. -/
def loadModel (files : FileTree) (source : SourceRef) : LoadM Model :=
  Load.loadWith (Load.loader files) files source

/-- Parses a text as the model `name`. Files that it includes are found from `origin`. -/
def parseModel (files : FileTree) (name text : String) (origin : SourceRef) : LoadM Model :=
  Load.parseWith (Load.loader files) name text origin

/-- Parses a text as a model without a name, which no other model can include. -/
def parseAnonymousModel (files : FileTree) (text : String) (origin : SourceRef) :
    LoadM Model :=
  Load.parseAnonymousWith (Load.loader files) text origin

/-- Loads the spec in a file. -/
def loadSpec (files : FileTree) (source : SourceRef) : LoadM Section := do
  let text ← LoadM.readSource files source
  LoadM.tell (.parsingSpec source)
  Spec.parse source.render text

end IdlGen
