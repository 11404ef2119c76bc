import IdlGen.Proofs.Generate.Preparation
import IdlGen.Proofs.Load.Resolution
import IdlGen.Proofs.Load.Valid
import IdlGen.Proofs.Types.Check

/-!
# File by file

A prepared entry is carried out file by file: for the whole model, or for each declaration of a
kind in the order of the model. An attempt is one file with what came of it, and attempts lead from
one world to another, so they say what is rendered and written and in which order.

The renderings share one context, which each file changes before it is rendered. Since every file
of an entry writes the same keys, nothing is left in it from the file before.
-/

namespace IdlGen

/-- A declaration as templates see it. -/
def Symbol.view? : Symbol → Option Tree
  | enum t => View.enumeration? t
  | struct t => View.record? t
  | exception t => View.record? t
  | service s => some (View.service s)
  | _ => none

/-- What a model declares of a kind, in order. -/
def Model.ofKind (m : Model) (kind : DeclKind) : List Symbol :=
  m.declarations.filter (·.kind = kind.key)

/-- The declarations of a kind are those that can be shown. -/
theorem DeclKind.declarations_eq (kind : DeclKind) (m : Model) :
    kind.declarations m =
      (m.ofKind kind).filterMap fun symbol => symbol.view?.map (symbol.name, ·) := by
  -- Only one table of the model has declarations of the kind.
  cases kind <;>
    simp [declarations, Model.ofKind, Model.declarations, List.filter_map, Function.comp_def,
      Symbol.kind, Symbol.name, Symbol.view?, key, ite_eq_iff]

/-- A loaded model has nothing that cannot be shown. -/
theorem Model.Flat.exists_view {m : Model} {space : TypeSpace} {kind : DeclKind} {symbol : Symbol}
    (flat : m.Flat) (valid : m.Valid space) (member : symbol ∈ m.ofKind kind) :
    ∃ view, symbol.view? = some view := by
  have record {t : Ty} (isRecord : t ∈ m.structs ++ m.exceptions) :
      ∃ view, View.record? t = some view := by
    obtain ⟨body, hasBody, _⟩ := valid.records t isRecord
    exact ⟨_, congrArg (Option.map _) hasBody⟩
  cases symbol with
  | const c =>
      have key : "const" = kind.key := of_decide_eq_true (List.mem_filter.mp member).2
      cases kind <;> exact absurd key (by decide)
  | element e =>
      have key : "enum element" = kind.key := of_decide_eq_true (List.mem_filter.mp member).2
      cases kind <;> exact absurd key (by decide)
  | enum t =>
      have isEnum : t ∈ m.enums := by
        simpa [declarations] using (List.mem_filter.mp member).1
      obtain ⟨body, hasBody, _⟩ := flat.bodies t isEnum
      exact ⟨_, congrArg (Option.map _) hasBody⟩
  | struct t =>
      have isStruct : t ∈ m.structs := by
        simpa [declarations] using (List.mem_filter.mp member).1
      exact record (List.mem_append_left _ isStruct)
  | exception t =>
      have isException : t ∈ m.exceptions := by
        simpa [declarations] using (List.mem_filter.mp member).1
      exact record (List.mem_append_right _ isException)
  | service v => exact ⟨_, rfl⟩

/-- The file for a declaration, which is named after it and shows it under the name of its kind. -/
def FileNaming.output? (n : FileNaming) (kind : DeclKind) (symbol : Symbol) : Option OutputFile :=
  symbol.view?.map fun view =>
    ⟨n.baseName symbol.name, n.fileName (n.baseName symbol.name), [(kind.key, view)]⟩

/-- The file brings the keys that every file of the iteration brings. -/
def OutputFile.Suits (o : OutputFile) : Iteration → Prop
  | .whole _ => o.item = []
  | .each kind => ∃ view, o.item = [(kind.key, view)]

/-- A function that is defined on all members of a list gives one image for each. -/
theorem forall₂_filterMap {α β : Type} {f : α → Option β} {xs : List α}
    (total : ∀ x ∈ xs, ∃ y, f x = some y) :
    List.Forall₂ (fun x y => f x = some y) xs (xs.filterMap f) := by
  induction xs with
  | nil => exact .nil
  | cons x xs ih =>
      obtain ⟨y, value⟩ := total x List.mem_cons_self
      rw [List.filterMap_cons_some value]
      exact .cons value (ih fun x' member => total x' (List.mem_cons_of_mem _ member))

namespace Prepared

variable {p : Prepared} {o : OutputFile} {kind : DeclKind}

/-- How the entry names its files. -/
def naming (p : Prepared) : FileNaming := .ofConfig p.job.config p.job.options

/-- The files are those that the entry asks for, in order. -/
inductive Covers (p : Prepared) : List OutputFile → Prop
  | whole {fileName : String} (iteration : p.job.iteration = .whole fileName) :
      Covers p [⟨Job.stem fileName, fileName, []⟩]
  | each {kind : DeclKind} {os : List OutputFile} (iteration : p.job.iteration = .each kind)
      (files : List.Forall₂ (fun symbol o => p.naming.output? kind symbol = some o)
        (p.model.ofKind kind) os) :
      Covers p os

theorem covers_outputs {space : TypeSpace} (flat : p.model.Flat) (valid : p.model.Valid space) :
    p.Covers (p.job.outputs p.model) := by
  unfold Job.outputs
  split
  · next fileName iteration => exact .whole iteration
  · next kind iteration =>
      refine .each iteration ?_
      rw [List.forall₂_map_right_iff, DeclKind.declarations_eq]
      refine List.Forall₂.imp ?_ (forall₂_filterMap fun symbol member => ?_)
      · intro symbol shown entry
        obtain ⟨view, isView, rfl⟩ := Option.map_eq_some_iff.mp entry
        rw [FileNaming.output?, isView]
        rfl
      · obtain ⟨view, isView⟩ := flat.exists_view valid member
        exact ⟨_, congrArg (Option.map _) isView⟩

/-- What the rendering of a file sees, and nothing else: the model, the parameters and the helpers
of the entry, the declaration that the file is for, and the name of the file. -/
def sees (p : Prepared) (o : OutputFile) : Section :=
  [("model", View.model p.model), ("params", .sorted (.object (p.job.config.sub "params"))),
   ("helpers", .sorted (.object p.helpers))] ++ o.item ++
  [("filename", .str o.fileName), ("base_name", .str o.baseName)]

/-- A context from which every file of the entry makes what its rendering sees. -/
def Reusable (p : Prepared) (context : Section) : Prop :=
  ∀ o : OutputFile, o.Suits p.job.iteration → o.into context = p.sees o

theorem reusable_context (p : Prepared) : p.Reusable (p.job.context p.model p.helpers) := by
  intro o suits
  cases iteration : p.job.iteration with
  | whole fileName =>
      rw [iteration] at suits
      rw [OutputFile.into, sees, suits]
      rfl
  | each kind =>
      rw [iteration] at suits
      obtain ⟨view, item⟩ := suits
      rw [OutputFile.into, sees, item]
      cases kind <;> rfl

/-- A file leaves a context that the next one can use, which writes over all that was only for the
one before. -/
theorem reusable_sees (suits : o.Suits p.job.iteration) : p.Reusable (p.sees o) := by
  intro next suits'
  cases iteration : p.job.iteration with
  | whole fileName =>
      rw [iteration] at suits suits'
      rw [OutputFile.into, sees, sees, suits, suits']
      rfl
  | each kind =>
      rw [iteration] at suits suits'
      obtain ⟨view, item⟩ := suits
      obtain ⟨view', item'⟩ := suits'
      rw [OutputFile.into, sees, sees, item, item']
      cases kind <;> rfl

theorem Covers.suits {os : List OutputFile} (covers : p.Covers os) (member : o ∈ os) :
    o.Suits p.job.iteration := by
  cases covers with
  | whole iteration =>
      obtain rfl := List.mem_singleton.mp member
      rw [iteration]
      rfl
  | each iteration files =>
      rw [iteration]
      obtain ⟨symbol, _, file⟩ := exists_of_mem_forall₂ files member
      obtain ⟨view, _, rfl⟩ := Option.map_eq_some_iff.mp file
      exact ⟨view, rfl⟩

theorem Covers.each_of {os : List OutputFile} (covers : p.Covers os)
    (iterates : p.job.iteration = .each kind) :
    List.Forall₂ (fun symbol o => p.naming.output? kind symbol = some o)
      (p.model.ofKind kind) os := by
  cases covers with
  | whole iteration => cases iterates.symm.trans iteration
  | each iteration files =>
      cases iterates.symm.trans iteration
      exact files

/-- Where a file goes. -/
def path (p : Prepared) (o : OutputFile) : String := Path.join p.directory o.fileName

end Prepared

namespace TemplateBackend

/-- A file that was to be written, and what came of it. -/
structure Attempt where
  output : OutputFile
  result : Except GenError Unit

def Attempt.failed (a : Attempt) : Bool := !a.result.isOk

/-- How many attempts failed. -/
def failures (attempts : List Attempt) : Nat := attempts.countP (·.failed)

/-- The attempt leads from one world to another: its file is rendered, and written if that goes
well. -/
inductive Attempted (p : Prepared) : Attempt → World → World → Prop
  | unrendered {o : OutputFile} {cause : TemplateError} {w : World}
      (rendered : p.render (p.sees o) = .error cause) :
      Attempted p ⟨o, .error (.template cause)⟩ w
        (w.noting [.outputFailed p.job.iteration.key (p.path o) p.job.id (.template cause)])
  | unwritten {o : OutputFile} {text : String} {cause : FileError} {w : World}
      (rendered : p.render (p.sees o) = .ok text)
      (refused : w.files.write (p.path o) text = .error cause) :
      Attempted p ⟨o, .error (.file (p.path o) cause)⟩ w
        (w.noting [.outputFailed p.job.iteration.key (p.path o) p.job.id (.file (p.path o) cause)])
  | written {o : OutputFile} {text : String} {w : World} {files : FileTree}
      (rendered : p.render (p.sees o) = .ok text)
      (done : w.files.write (p.path o) text = .ok files) :
      Attempted p ⟨o, .ok ()⟩ w (World.noting ⟨files, w.log⟩ [.wrote p.job.id (p.path o)])

/-- The attempts lead from one world to another, one after the other. -/
inductive Attempts (p : Prepared) : World → List Attempt → World → Prop
  | nil (w : World) : Attempts p w [] w
  | cons {a : Attempt} {attempts : List Attempt} {w w₁ w₂ : World} (first : Attempted p a w w₁)
      (rest : Attempts p w₁ attempts w₂) : Attempts p w (a :: attempts) w₂

variable {language : TemplateLanguage} {sets : HelperSets} {e : Entry} {p : Prepared}
  {w w₁ : World}

/-- Rendering and writing a file is one attempt, and it does not fail. -/
theorem writeOutput_attempted (p : Prepared) (o : OutputFile) (w : World) :
    ∃ result w', Attempted p ⟨o, result⟩ w w' ∧
      writeOutput p.job p.directory (p.render (p.sees o)) o w =
        (.ok (failures [⟨o, result⟩]), w') := by
  cases rendered : p.render (p.sees o) with
  | error cause => exact ⟨_, _, .unrendered rendered, rfl⟩
  | ok text =>
      cases done : w.files.write (p.path o) text with
      | error cause =>
          have refused : (writeRendered (.ok text) (p.path o)).outcome w =
              (.ok (.error (.file (p.path o) cause)), w) := by
            simp only [RunM.outcome, writeRendered, RunM.write, done]
          refine ⟨_, _, .unwritten rendered done, ?_⟩
          exact RunM.bind_of_ok refused
      | ok files =>
          have wrote : (writeRendered (.ok text) (p.path o)).outcome w =
              (.ok (.ok ()), ⟨files, w.log⟩) := by
            simp only [RunM.outcome, writeRendered, RunM.write, done]
          refine ⟨_, _, .written rendered done, ?_⟩
          exact RunM.bind_of_ok wrote

/-- Files are attempted one after the other, whatever becomes of each. -/
theorem writeOutputs_attempts {os : List OutputFile} {context : Section}
    (suits : ∀ o ∈ os, o.Suits p.job.iteration) (reusable : p.Reusable context) (w : World) :
    ∃ attempts w', Attempts p w attempts w' ∧ attempts.map (·.output) = os ∧
      writeOutputs p.job p.directory p.render context os w = (.ok (failures attempts), w') := by
  induction os generalizing context w with
  | nil => exact ⟨[], w, .nil w, rfl, rfl⟩
  | cons o os ih =>
      have here : o.Suits p.job.iteration := suits o List.mem_cons_self
      obtain ⟨result, w₁, first, wrote⟩ := writeOutput_attempted p o w
      obtain ⟨attempts, w₂, rest, outputs, others⟩ :=
        ih (fun o' member => suits o' (List.mem_cons_of_mem _ member))
          (Prepared.reusable_sees here) w₁
      refine ⟨⟨o, result⟩ :: attempts, w₂, .cons first rest, congrArg (o :: ·) outputs, ?_⟩
      have counted : failures (⟨o, result⟩ :: attempts) =
          failures [⟨o, result⟩] + failures attempts := by
        rw [failures, ← List.singleton_append, List.countP_append]
        rfl
      rw [writeOutputs, reusable o here, RunM.bind_of_ok wrote, RunM.bind_of_ok others, counted]
      rfl

/-- Loading gives models that additions built and that hold what they should. -/
theorem built_and_valid_of_load {files : FileTree} {source : SourceRef} {m : Model} {τ : LoadState}
    (loaded : (loadModel files source).exec {} = (.ok m, τ)) :
    m.BuiltBy (Declaration.Named Identifier Identifier) ∧ ∃ space, m.Valid space := by
  let call := Session.Call.load source
  have run : (call.run files (Load.maxDepth files)).exec {} = (.ok m, τ) := loaded
  have built := ((call.builds files _ ModelSet.WellFormed.empty) ModelSet.Built.empty).ok run
  obtain ⟨space, _, _, valid⟩ := (call.valid files _ {} _ ModelSet.valid_empty).ok run
  exact ⟨built.1, space, valid⟩

/-- What an entry gets ready. -/
structure Readies (language : TemplateLanguage) (sets : HelperSets) (e : Entry) (w : World)
    (p : Prepared) (w₁ : World) : Prop where
  asked : p.job.AskedBy e.config e.id
  loaded : ∃ τ, (loadModel w.files p.job.model).exec {} = (.ok p.model, τ)
  directory : p.directory = Output.directory p.job.options p.model
  made : w.files.makeDirectories p.directory = (.ok (), w₁.files)
  compiled : ∃ text render helpers,
    ((LoadM.readSource w₁.files p.job.template).exec {}).1 = .ok text ∧
      language p.template text = .ok render ∧ p.render = render helpers
  helpers : p.helpers = .ofMembers (registered sets (e.config.sub "helper_classes"))

theorem readies_of_prepare (ready : prepare language sets e w = (.ok p, w₁)) :
    Readies language sets e w p w₁ := by
  have cases := prepare_cases language sets e w
  rw [ready] at cases
  cases cases with
  | ready checked loaded made read compiled =>
      rcases Job.check_cases e.config e.id with ⟨_, fault, refused⟩ | ⟨_, j, asks, asked⟩
      · cases refused.symm.trans checked
      · cases asks.symm.trans checked
        exact ⟨asked, ⟨_, loaded⟩, rfl, made, ⟨_, _, _, read, compiled, rfl⟩, asked.config ▸ rfl⟩

theorem generate_eq (ready : prepare language sets e w = (.ok p, w₁)) :
    ∃ attempts w₂, Attempts p w₁ attempts w₂ ∧ p.Covers (attempts.map (·.output)) ∧
      generate language sets e w =
        (if failures attempts = 0 then .ok () else .error (.failedOutputs (failures attempts) e.id),
          w₂.noting [.rendered e.id p.template (failures attempts)]) := by
  have readies := readies_of_prepare ready
  obtain ⟨τ, loaded⟩ := readies.loaded
  obtain ⟨built, space, valid⟩ := built_and_valid_of_load loaded
  have covers : p.Covers (p.job.outputs p.model) :=
    Prepared.covers_outputs built.flat_of_identifiers valid
  obtain ⟨attempts, w₂, leads, outputs, wrote⟩ :=
    writeOutputs_attempts (fun o member => covers.suits member) p.reusable_context w₁
  refine ⟨attempts, w₂, leads, outputs ▸ covers, ?_⟩
  have told : RunM.tell (.rendered p.job.id p.template (failures attempts)) w₂ =
      (.ok (), w₂.noting [.rendered p.job.id p.template (failures attempts)]) := rfl
  rw [generate, RunM.bind_of_ok ready, RunM.bind_of_ok wrote, RunM.bind_of_ok told,
    readies.asked.id]
  by_cases none : failures attempts = 0
  · rw [if_pos none, if_neg (by omega)]
    rfl
  · rw [if_neg none, if_pos (by omega)]
    rfl

@[simp] theorem failures_eq_zero_iff {attempts : List Attempt} :
    failures attempts = 0 ↔ ∀ a ∈ attempts, a.result = .ok () := by
  have failed_iff (a : Attempt) : a.failed = true ↔ a.result ≠ .ok () := by
    obtain ⟨o, _ | _⟩ := a <;> simp [Attempt.failed, Except.isOk, Except.toBool]
  rw [failures, List.countP_eq_zero]
  simp only [failed_iff, not_not]

/-- Once an entry is ready, each of its files is attempted, once and in the order of the model,
whatever becomes of the others, and its rendering sees what is meant for it and nothing more. The
entry succeeds if all of the attempts do, and otherwise tells how many did not. -/
theorem generate_attempts (ready : prepare language sets e w = (.ok p, w₁)) :
    Readies language sets e w p w₁ ∧
      ∃ attempts w₂, Attempts p w₁ attempts w₂ ∧ p.Covers (attempts.map (·.output)) ∧
        (generate language sets e w).2 =
          w₂.noting [.rendered e.id p.template (failures attempts)] ∧
        ((generate language sets e w).1 = .ok () ↔ ∀ a ∈ attempts, a.result = .ok ()) ∧
        ∀ err, (generate language sets e w).1 = .error err →
          err = .failedOutputs (failures attempts) e.id := by
  refine ⟨readies_of_prepare ready, ?_⟩
  obtain ⟨attempts, w₂, leads, covers, ran⟩ := generate_eq ready
  refine ⟨attempts, w₂, leads, covers, congrArg Prod.snd ran, ?_⟩
  rw [ran, ← failures_eq_zero_iff]
  by_cases none : failures attempts = 0
  · simp [none]
  · simp [none, eq_comm]

theorem eq_mk_of_fst {α β : Type} {x : α × β} {a : α} (first : x.1 = a) : x = (a, x.2) := by
  rw [← first]

/-- One of three files is written, one cannot be rendered, and one has a directory in its place. -/
theorem generate_attempts_of_mixture :
    let w : World := ⟨⟨[], [(["m.thrift"], .file (.text
      "struct A \x7b\x7d struct B \x7b\x7d struct C \x7b\x7d")), (["t.txt"], .file (.text "")),
      (["out"], .directory), (["C", "out"], .directory)], []⟩, []⟩
    let e : Entry := ⟨"t", 0, [("options", .object [("model_file", .str "m.thrift"),
      ("output_dir", .str "out")]), ("template", .str "t.txt"), ("iterate", .str "struct")]⟩
    let language : TemplateLanguage := fun _ _ => .ok fun _ context =>
      if context.text? "filename" = some "B" then .error .notIterable else .ok "text"
    ∃ p w₁ attempts w₂, prepare language [] e w = (.ok p, w₁) ∧ Attempts p w₁ attempts w₂ ∧
      p.Covers (attempts.map (·.output)) ∧ (p.model.ofKind .struct).map (·.name) = ["A", "B", "C"] ∧
      failures attempts = 2 ∧ (generate language [] e w).1 = .error (.failedOutputs 2 "t[0]") ∧
      (generate language [] e w).2.files.read "out/A" = .ok "text" := by
  intro w e language
  have prepared : ((prepare language [] e w).1.toOption.map fun p =>
      (p.model.ofKind .struct).map (·.name)) = some ["A", "B", "C"] := by decide +kernel
  obtain ⟨p, ok, names⟩ := Option.map_eq_some_iff.mp prepared
  have ready := eq_mk_of_fst (eq_ok_of_toOption ok)
  have ran : (generate language [] e w).1 = .error (.failedOutputs 2 "t[0]") ∧
      (generate language [] e w).2.files.read "out/A" = .ok "text" := by
    decide +kernel
  obtain ⟨_, attempts, w₂, leads, covers, _, _, counts⟩ := generate_attempts ready
  have two : GenError.failedOutputs 2 "t[0]" = .failedOutputs (failures attempts) e.id :=
    counts _ ran.1
  refine ⟨p, _, attempts, w₂, ready, leads, covers, names, ?_, ran⟩
  exact (GenError.failedOutputs.inj two).1.symm

end TemplateBackend

end IdlGen
