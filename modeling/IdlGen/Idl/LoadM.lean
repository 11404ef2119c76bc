import IdlGen.Files.FileTree
import IdlGen.Files.SourceRef
import IdlGen.Model.Lookup
import IdlGen.Token.Reader

/-!
# Loading

Loading reads files and grows a model set, and it tells what it does in a log. Both the set and the
log outlive an error, since a failed load still leaves the models that it had finished before.
-/

namespace IdlGen

/-- What loading tells. -/
inductive LoadEvent where
  | reading (path : String)
  | fetching (address : String)
  | includes (file : String) (source : SourceRef)
  | loadedModel (name file : String)
  | parsingSpec (source : SourceRef)
deriving DecidableEq, Repr

def LoadEvent.message : LoadEvent → String
  | reading path => s!"reading {path}"
  | fetching address => s!"fetching {address}"
  | includes file source => s!"{file} includes {source.render}"
  | loadedModel name file => s!"loaded model {name} from {file}"
  | parsingSpec source => s!"parsing genspec {source.render}"

structure LoadState where
  set : ModelSet := .empty
  log : List LoadEvent := []

/-- A computation that loads. -/
abbrev LoadM := ExceptT SourceError (StateM LoadState)

namespace LoadM

/-- Adds to the log. -/
def tell (e : LoadEvent) : LoadM Unit := modify fun s => { s with log := s.log ++ [e] }

/-- The model set. -/
def getSet : LoadM ModelSet := return (← get).set

/-- Replaces the model set. -/
def setSet (set : ModelSet) : LoadM Unit := modify fun s => { s with set }

/-- Changes the model set and gives a result. -/
def updateSet {α : Type} (f : ModelSet → α × ModelSet) : LoadM α := do
  let (a, set) := f (← getSet)
  setSet set
  return a

/-- The text behind a reference. -/
def readSource (files : FileTree) : SourceRef → LoadM String
  | .nowhere => throw (.unreadable "" (.unspecified "file"))
  | .file path => do
    tell (.reading path)
    match files.read path with
    | .ok text => return text
    | .error e => throw (.unreadable path e)
  | .url address => do
    tell (.fetching address)
    match files.fetch? address with
    | some text => return text
    | none => throw (.fetch address)

end LoadM

end IdlGen
