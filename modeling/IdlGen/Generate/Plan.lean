import IdlGen.Generate.Backend

/-!
# Plans

A plan is a spec together with the options of the process. Options cascade from the spec's global
section through the options of the process and those of a target down to those of an entry, and the
more specific one wins. Parameters cascade in the same way, helpers only from the target on.
-/

namespace IdlGen

structure Plan where
  options : Section
  spec : Section

namespace Plan

/-- The options of all targets. -/
def globalOptions (p : Plan) : Section := ((p.spec.sub "global").sub "options").overlay p.options

/-- The parameters of all targets. -/
def globalParams (p : Plan) : Section := (p.spec.sub "global").sub "params"

/-- Whether an item of a list is a given text. -/
def isText (text : String) : Tree → Bool
  | .str s => s = text
  | _ => false

/-- Whether a target is asked for. Asking for none, or for `all`, asks for every one. -/
def selects (p : Plan) (target : String) : Bool :=
  let requested := p.globalOptions.items "target"
  requested.isEmpty || requested.any (isText "all") || requested.any (isText target)

/-- The entry at a place of a target's list, with all that it inherits. -/
def entry (p : Plan) (name : String) (target : Section) (index : Nat) (config : Section) :
    Entry :=
  let options := (p.globalOptions.overlay (target.sub "options")).overlay (config.sub "options")
  let params := (p.globalParams.overlay (target.sub "params")).overlay (config.sub "params")
  let helpers := (target.sub "helper_classes").overlay (config.sub "helper_classes")
  { target := name
    index
    config := ((config.insert "options" (.object options)).insert "params" (.object params)).insert
      "helper_classes" (.object helpers) }

/-- A part of the spec: an entry, or something that is passed over. -/
abbrev Step := Event ⊕ Entry

/-- The steps of a target. Places in the list are counted with those that are passed over. -/
def targetSteps (p : Plan) (name : String) : Tree → List Step
  | .object target =>
    (Section.items target "generators").zipIdx.map fun
      | (.object config, index) => .inr (p.entry name target index config)
      | (_, index) => .inl (.entryNotASection (entryId name index))
  | _ => [.inl (.targetNotASection name)]

/-- The steps of all targets that are asked for, in the order of the spec. -/
def steps (p : Plan) : List Step :=
  ((p.spec.sub "targets").filter (p.selects ·.1)).flatMap fun (name, target) =>
    p.targetSteps name target

/-- The entries to carry out. -/
def entries (p : Plan) : List Entry := p.steps.filterMap fun
  | .inr e => some e
  | .inl _ => none

/-- What is told about the parts that are passed over. -/
def warnings (p : Plan) : List Event := p.steps.filterMap fun
  | .inl e => some e
  | .inr _ => none

/-- The entries to carry out. Tells what is passed over. -/
def resolve (p : Plan) : RunM (List Entry) := do
  p.warnings.forM RunM.tell
  return p.entries

/-- The extension of spec files. -/
def specExtension : String := ".gen"

/-- The name of the only spec in a directory. -/
def findSpec (dir : String) : RunM String := do
  match (← RunM.files).filesIn dir with
  | .error e => throw (.file dir e)
  | .ok names =>
    match names.filter (Text.endsWith · specExtension) with
    | [name] => return name
    | [] => throw (.spec (.noneIn dir))
    | many => throw (.spec (.severalIn dir many.length))

/-- The name of the spec that the options give, or else of the only one in the directory. The plan
keeps it as an option. -/
def chooseSpec (options : Section) (dir : String) : RunM (String × Section) := do
  match options.text? "genspec_file" with
  | some name => return (name, options)
  | none => do
    let name ← findSpec dir
    return (name, options.insert "genspec_file" (.str name))

/-- Loads the plan for a directory. -/
def load (options : Section) (dir : String) : RunM Plan := do
  let (name, options) ← chooseSpec options dir
  let source := SourceRef.resolve (some dir) none (some name)
  let spec ← RunM.mustLoad fun files => loadSpec files source
  RunM.tell (.loadedSpec source)
  return { options, spec }

end Plan

end IdlGen
