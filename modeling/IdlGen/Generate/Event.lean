import IdlGen.Generate.Error
import IdlGen.Idl.LoadM
import IdlGen.Tree.Json

/-!
# What a run tells

The log of a run is a list of events. An event has a level, so that a quiet run can leave out what
is no trouble, and one line of text.
-/

namespace IdlGen

inductive Level where
  | error | warn | info | debug
deriving DecidableEq, Repr

def Level.text : Level → String
  | error => "ERROR"
  | warn => "WARN"
  | info => "INFO"
  | debug => "DEBUG"

/-- How many entries of a run came to which end. -/
structure Report where
  succeeded : Nat := 0
  skipped : Nat := 0
  failed : Nat := 0
deriving DecidableEq, Repr

inductive Event where
  | load (event : LoadEvent)
  | loadedSpec (source : SourceRef)
  | targetNotASection (target : String)
  | entryNotASection (id : String)
  | chosen (id backend : String)
  | unknownBackend (cause : GenError)
  | terminated (id : String) (cause : GenError)
  | skipped (cause : GenError)
  | failed (id : String) (cause : GenError)
  | finished (report : Report)
  | unknownHelpers (helper : Tree) (id : String)
  | wrote (id path : String)
  | outputFailed (kind path id : String) (cause : GenError)
  | rendered (id template : String) (failures : Nat)
  | shortfall (report : Report)

namespace Event

def level : Event → Level
  | load (.loadedModel _ _) => .info
  | load _ => .debug
  | loadedSpec _ => .info
  | targetNotASection _ => .warn
  | entryNotASection _ => .warn
  | chosen _ _ => .debug
  | unknownBackend _ => .error
  | terminated _ _ => .error
  | skipped _ => .warn
  | failed _ _ => .error
  | finished _ => .info
  | unknownHelpers _ _ => .warn
  | wrote _ _ => .info
  | outputFailed _ _ _ _ => .error
  | rendered _ _ _ => .debug
  | shortfall _ => .warn

def message : Event → String
  | load event => event.message
  | loadedSpec source => s!"loaded genspec {source.render}"
  | targetNotASection target => s!"Target {target} is not a section, skipping"
  | entryNotASection id => s!"Generator {id} is not a section, skipping"
  | chosen id backend => s!"{id} using {backend}"
  | unknownBackend cause => s!"{cause.message} -- skipping"
  | terminated id cause => s!"Generation terminated at {id}: {cause.message}"
  | skipped cause => cause.message
  | failed id cause => s!"Generator {id} failed: {cause.message}"
  | finished r =>
    s!"generation finished: {r.succeeded} succeeded, {r.skipped} skipped, {r.failed} failed"
  | unknownHelpers helper id => s!"Error loading helper class {helper.json} for target {id}"
  | wrote id path => s!"{id} wrote {path}"
  | outputFailed kind path id cause =>
    s!"Error creating {kind} output file {path} for target {id}: {cause.message}"
  | rendered id template failures => s!"{id} rendered {template} with {failures} failure(s)"
  | shortfall r => s!"{r.failed} generator(s) failed and {r.skipped} were skipped"

end Event

end IdlGen
