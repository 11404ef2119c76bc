import IdlGen.Generate.Plan

/-!
# Runs

A run carries out the entries of a plan in order. An entry that lacks something is skipped, one that
fails is counted, and the run goes on; an error in a definition or spec ends it.
-/

namespace IdlGen

namespace Run

/-- How an entry that does not end the run is counted. -/
inductive End where
  | succeeded | skipped | failed
deriving DecidableEq, Repr

def count (r : Report) : End → Report
  | .succeeded => { r with succeeded := r.succeeded + 1 }
  | .skipped => { r with skipped := r.skipped + 1 }
  | .failed => { r with failed := r.failed + 1 }

/-- What becomes of an entry that its backend has carried out. Only a fatal error is passed on. -/
def settle (id : String) : Except GenError Unit → RunM End
  | .ok () => return .succeeded
  | .error e =>
    if e.isFatal then do
      RunM.tell (.terminated id e)
      throw e
    else if e.isConfig then do
      RunM.tell (.skipped e)
      return .skipped
    else do
      RunM.tell (.failed id e)
      return .failed

/-- Carries out an entry. -/
def visit (backends : Backends) (e : Entry) : RunM End := do
  let name := e.config.text? "generator_class"
  match backends.find? (name.getD Backends.defaultName) with
  | none => do
    RunM.tell (.unknownBackend (.unknownBackend (name.getD "") e.id backends.names))
    return .failed
  | some backend => do
    RunM.tell (.chosen e.id backend.name)
    let result ← (backend.generate e).outcome
    settle e.id result

/-- Carries out entries in order and adds them to a report. -/
def visitAll (backends : Backends) : List Entry → Report → RunM Report
  | [], report => return report
  | e :: rest, report => do
    let ending ← visit backends e
    visitAll backends rest (count report ending)

end Run

/-- Carries out a plan. -/
def Plan.run (p : Plan) (backends : Backends) : RunM Report := do
  let entries ← p.resolve
  let report ← Run.visitAll backends entries {}
  RunM.tell (.finished report)
  return report

end IdlGen
