import IdlGen.Generate.Event
import IdlGen.Load

/-!
# The world of a run

A run reads and changes the files and adds to the log. Both outlive an error, since a failed entry
leaves what it had written before.
-/

namespace IdlGen

structure World where
  files : FileTree
  log : List Event := []

/-- A computation that generates. -/
abbrev RunM := ExceptT GenError (StateM World)

namespace RunM

/-- Adds to the log. -/
def tell (e : Event) : RunM Unit := modify fun w => { w with log := w.log ++ [e] }

/-- The files as they are. -/
def files : RunM FileTree := return (← get).files

/-- Loads from the files into a model set of its own. -/
def load {α : Type} (action : FileTree → LoadM α) : RunM (Except SourceError α) := fun w =>
  let (result, s) := (action w.files).run {}
  (.ok result, { w with log := w.log ++ s.log.map .load })

/-- Loads, and gives up if that fails. -/
def mustLoad {α : Type} (action : FileTree → LoadM α) : RunM α := do
  match ← load action with
  | .ok a => return a
  | .error e => throw (.source e)

/-- Makes a directory and all that are missing around it. -/
def makeDirectories (path : String) : RunM Unit := fun w =>
  let (result, files) := w.files.makeDirectories path
  (result.mapError (.file path), { w with files })

/-- Writes a file. -/
def write (path text : String) : RunM Unit := fun w =>
  match w.files.write path text with
  | .ok files => (.ok (), { w with files })
  | .error e => (.error (.file path e), w)

/-- The outcome of a computation, errors included. -/
def outcome {α : Type} (action : RunM α) : RunM (Except GenError α) := fun w =>
  let (result, w) := action w
  (.ok result, w)

end RunM

end IdlGen
