import IdlGen.SourceError
import IdlGen.Template.Error

/-!
# Errors of generation

An error in a definition or spec ends a whole run, because nothing that is generated from it can be
trusted. An entry that lacks something is skipped, and any other error fails only its entry.
-/

namespace IdlGen

/-- Why no spec was chosen in a directory. -/
inductive SpecFault where
  | noneIn (dir : String)
  | severalIn (dir : String) (count : Nat)
deriving DecidableEq, Repr

def SpecFault.message : SpecFault → String
  | noneIn dir => s!"No genspec file specified and none found in {dir}"
  | severalIn dir count => s!"No genspec file specified and {count} found in {dir}"

/-- What a generator entry lacks. -/
inductive ConfigFault where
  | noModelFile
  | noTemplate
  | badIteration (mode : String)
  | badCharset (charset : String)
  | noFileName
deriving DecidableEq, Repr

/-- The fault of the entry `id`. -/
def ConfigFault.message (id : String) : ConfigFault → String
  | noModelFile => s!"No model_file defined for target {id}"
  | noTemplate => s!"No template defined for target {id}"
  | badIteration mode => s!"Invalid iterate type {mode} for target {id}"
  | badCharset charset => s!"Unsupported output_charset {charset} for target {id}"
  | noFileName => s!"No filename specified for iterate:none for target {id}"

inductive GenError where
  | spec (cause : SpecFault)
  | source (cause : SourceError)
  | config (id : String) (cause : ConfigFault)
  | unknownBackend (name id : String) (known : List String)
  | template (cause : TemplateError)
  | file (path : String) (cause : FileError)
  | unreadableTemplate (path id : String) (cause : SourceError)
  | failedOutputs (count : Nat) (id : String)
deriving DecidableEq, Repr

namespace GenError

def message : GenError → String
  | spec cause => s!"Genspec error: {cause.message}"
  | source cause => cause.message
  | config id cause => cause.message id
  | unknownBackend name id known =>
    let names := ", ".intercalate known
    s!"Invalid generator \"{name}\" specified for target[generator] = {id} (known: {names})"
  | template cause => s!"Template error: {cause.message}"
  | file path cause => s!"I/O error on {path}: {cause.message}"
  | unreadableTemplate path id cause =>
    s!"Error reading template {path} for target {id}: {cause.message}"
  | failedOutputs count id => s!"{count} output file(s) failed for target {id}"

/-- Whether the error only means that its entry is skipped. -/
def isConfig : GenError → Bool
  | config _ _ => true
  | _ => false

/-- Whether the error ends the run. -/
def isFatal : GenError → Bool
  | spec _ => true
  | source _ => true
  | _ => false

end GenError

end IdlGen
