import IdlGen.Proofs.Idl.Faults
import IdlGen.Proofs.Load.Anonymous
import IdlGen.Proofs.Load.Depth
import IdlGen.Proofs.Load.Lockstep

/-!
# Conflicts and include cycles

The load of a model opens a load for every unknown model that its file includes. `Frame` is one such
load with the state that it starts from, and the loads that are open at a time enclose one another.
A load fails over its own file, over a source that cannot be read, or because a load that it opened
fails; in the last case it fails with the same error.

The models that are pending in a file are those of the loads that enclose it. An include is refused
for a cycle if its model is pending, so there is a cycle then. The other conflicts do not arise at
all: an include of a known model opens no load, and the registry has no types of a model that is
unknown.
-/

namespace IdlGen

open Idl LoadM

theorem tokenizeFile_error {rules : LexRules} {file text : String} {e : SourceError}
    (failed : tokenizeFile rules file text = .error e) :
    ∃ pos fault, e = .parse file pos fault := by
  unfold tokenizeFile at failed
  split at failed
  · cases failed
  · exact ⟨_, _, (Except.error.inj failed).symm⟩

theorem LoadM.readSource_fails {files : FileTree} {source : SourceRef} {σ : LoadState} :
    (readSource files source).WP (fun _ _ => True)
      (fun e _ => (∃ file cause, e = .unreadable file cause) ∨ ∃ url, e = .fetch url) σ := by
  cases source with
  | nowhere => exact .inl ⟨_, _, rfl⟩
  | file path =>
      refine WP.bind_iff.mpr (WP.tell_iff.mpr ?_)
      split
      · trivial
      · exact .inl ⟨_, _, rfl⟩
  | url address =>
      refine WP.bind_iff.mpr (WP.tell_iff.mpr ?_)
      split
      · trivial
      · exact .inr ⟨_, rfl⟩

namespace Load

/-- An include is loaded as any other file. -/
theorem exec_loader {files : FileTree} {source : SourceRef} {σ : LoadState}
    (wf : σ.set.WellFormed) : (loader files source).exec σ =
      (loadWith (loader files) files source >>= fun _ => pure ()).exec σ := by
  have enough : readable files < maxDepth files + 1 :=
    Nat.lt_succ_of_lt (readable_lt_maxDepth files)
  have nested : (nest files (loadInclude files 0) (maxDepth files + 1) source).exec σ =
      (loader files source).exec σ := exec_nest_eq_loader wf enough
  rw [← nested, nest, ← loadInclude_eq_nest]
  rfl

theorem loadWith_of_loader {files : FileTree} {source : SourceRef} {σ : LoadState}
    {e : SourceError} (wf : σ.set.WellFormed)
    (failed : ((loader files source).exec σ).1 = .error e) :
    ((loadWith (loader files) files source).exec σ).1 = .error e := by
  rw [exec_loader wf, exec_bind] at failed
  split at failed
  · cases failed
  · rename_i out
    cases failed
    rw [out]

/-- The load of a named model: its text, where this is from, and the state that the load starts
from. -/
structure Frame where
  name : String
  text : String
  origin : SourceRef
  start : LoadState

namespace Frame

/-- The name of the file in errors. -/
def file (a : Frame) : String := a.origin.label a.name

/-- The state that the file is read from. -/
def opened (a : Frame) : LoadState := { a.start with set := a.start.set.reserve a.name }

def run (files : FileTree) (a : Frame) : Except SourceError Model × LoadState :=
  (parseWith (loader files) a.name a.text a.origin).exec a.start

/-- The load starts in a set that does not know the model. -/
structure Fresh (a : Frame) : Prop where
  wf : a.start.set.WellFormed
  unknown : ¬ a.start.set.Knows a.name

/-- The file is read as far as the place. -/
def ReadsTo (files : FileTree) (a : Frame) (place : Place) : Prop :=
  ∃ tokens, tokenizeFile .idl a.file a.text = .ok tokens ∧
    Reads ⟨a.file, tokens.eof⟩ a.origin (loader files)
      ⟨{ name := some a.name }, tokens.tokens, a.opened⟩ place

/-- The file is read as far as an include of the model. -/
def Includes (files : FileTree) (a : Frame) (n : String) : Prop :=
  ∃ place source, a.ReadsTo files place ∧ IncludeAhead a.origin place.rest source ∧
    source.modelName? = some n

/-- The first load opens the second one, for an include in its file. What is included is a file or
a page, and it can be read. -/
inductive Opens (files : FileTree) (a : Frame) : Frame → Prop
  | intro {place : Place} {source : SourceRef} {name text : String} (reads : a.ReadsTo files place)
      (ahead : IncludeAhead a.origin place.rest source) (named : source.modelName? = some name)
      (unknown : ¬ place.state.set.Knows name) (content : files.text? source = some text) :
      Opens files a ⟨name, text, source,
        ⟨place.state.set, place.state.log ++ [.includes a.file source] ++ announces source⟩⟩

/-- The loads from the first to the second one are open when the error arises: each opens the next
one, and this fails with the error. -/
def Chain (files : FileTree) (e : SourceError) : Frame → Frame → Prop :=
  Relation.ReflTransGen fun a b => a.Opens files b ∧ (b.run files).1 = .error e

variable {files : FileTree} {a b : Frame} {place : Place} {e : SourceError}

theorem Fresh.building (fresh : a.Fresh) :
    Model.Building { name := some a.name } a.opened.set :=
  building_reserve fresh.wf fresh.unknown

namespace ReadsTo

theorem building (reads : a.ReadsTo files place) (fresh : a.Fresh) :
    place.model.Building place.state.set ∧ place.model.name = some a.name := by
  obtain ⟨_, _, reads⟩ := reads
  exact reads.building (loadInclude_steady _) fresh.building

theorem progress (reads : a.ReadsTo files place) (fresh : a.Fresh) :
    a.opened.set.Progress (· ∈ place.model.named) place.state.set := by
  obtain ⟨_, _, reads⟩ := reads
  exact (reads.registers (loadInclude_steady _) fresh.building rfl).1

theorem pending (reads : a.ReadsTo files place) (fresh : a.Fresh) :
    place.state.set.pending = a.name :: a.start.set.pending := by
  obtain ⟨_, advance, _⟩ := reads.progress fresh
  exact advance.pending

/-- The registry has no types of the model but those that were declared on the way. -/
theorem registers (reads : a.ReadsTo files place) (fresh : a.Fresh) :
    place.model.Registers place.state.set := by
  intro n name t held owner
  obtain rfl : a.name = n := Option.some.inj ((reads.building fresh).2.symm.trans name)
  have before : ¬ a.opened.set.Holds t := fun old => fresh.unknown (fresh.wf.known old owner)
  obtain ⟨_, advance, _⟩ := reads.progress fresh
  rcases advance.named held before (Ty.isNamed_of_modelName? owner) with declared | ⟨n, of, _, new⟩
  · exact declared
  · obtain rfl := Option.some.inj (of.symm.trans owner)
    exact absurd (ModelSet.knows_reserve_iff.mpr (.inr rfl)) new

end ReadsTo

/-- What the model of a load may refuse: no conflict, or the include of a model that is pending. -/
def Blames (files : FileTree) (a : Frame) (cause : ModelError) : Prop :=
  cause.isConflict = false ∨
    ∃ n, cause = .circularInclude n ∧ a.Includes files n ∧ n ∈ a.name :: a.start.set.pending

theorem blames_of_include (fresh : a.Fresh) (reads : a.ReadsTo files place) {source : SourceRef}
    {n : String} (ahead : IncludeAhead a.origin place.rest source)
    (named : source.modelName? = some n) (pending : place.state.set.isPending n = true) :
    a.Blames files (.circularInclude n) := by
  rw [ModelSet.isPending_iff, reads.pending fresh] at pending
  exact .inr ⟨n, rfl, ⟨place, source, reads, ahead, named⟩, pending⟩

theorem blames_of_add (fresh : a.Fresh) (reads : a.ReadsTo files place) {s : ModelSet}
    {d : Declaration} (made : place.state.set.Progress (fun _ => False) s)
    (identifier : Identifier d.name) (cause : ModelError)
    (refused : d.add s place.model = .error cause) : a.Blames files cause := by
  obtain ⟨building, name⟩ := reads.building fresh
  have registers := (reads.registers fresh).progress building.pending made
  exact .inl (Declaration.add_peaceful name made.wellFormed registers identifier cause refused)

/-- How a load comes to fail. -/
inductive Fails (files : FileTree) (a : Frame) (e : SourceError) : Prop
  | unlexed (failed : tokenizeFile .idl a.file a.text = .error e)
  | refused {tokens : TokenList} (cut : tokenizeFile .idl a.file a.text = .ok tokens)
      (fault : Reader.Faults ⟨a.file, tokens.eof⟩ (a.Blames files) tokens.tokens e)
  | unread {source : SourceRef} {σ τ : LoadState}
      (failed : (readSource files source).exec σ = (.error e, τ))
  | nested {b : Frame} (opens : a.Opens files b) (failed : (b.run files).1 = .error e)

theorem parseInto_of_run (fresh : a.Fresh) (failed : (a.run files).1 = .error e) :
    ∃ τ, (parseInto (loader files) { name := some a.name } a.file a.file a.text a.origin).exec
      a.opened = (.error e, τ) := by
  cases run : (parseInto (loader files) { name := some a.name } a.file a.file a.text
      a.origin).exec a.opened with
  | mk out τ =>
      cases out with
      | ok m =>
          rw [Frame.run, exec_parseWith_ok fresh.unknown run] at failed
          cases failed
      | error e' =>
          rw [Frame.run, exec_parseWith_error fresh.unknown run] at failed
          cases failed
          exact ⟨τ, rfl⟩

/-- An include that cannot be loaded fails to be read, or a load fails that was opened for it. -/
theorem fails_of_include (fresh : a.Fresh) (reads : a.ReadsTo files place) {r : Reader}
    (reader : r.file = a.file)
    (fails : IncludeFails r a.origin (loader files) place.rest place.state e) :
    a.Fails files e := by
  obtain ⟨source, name, ahead, named, unknown, failed⟩ := fails
  let told : LoadState := ⟨place.state.set, place.state.log ++ [.includes a.file source]⟩
  have wf : told.set.WellFormed := (reads.building fresh).1.wf
  rw [reader] at failed
  have failed := loadWith_of_loader wf failed
  obtain ⟨out, read, content⟩ := exec_readSource files source told
  rw [loadWith, named] at failed
  dsimp only at failed
  rw [exec_bind, read] at failed
  cases out with
  | error e' =>
      cases failed
      exact .unread read
  | ok text =>
      exact .nested (.intro reads ahead named unknown content.symm) failed

/-- A load that fails does so in one of these ways. -/
theorem fails_of_run (fresh : a.Fresh) (failed : (a.run files).1 = .error e) :
    a.Fails files e := by
  obtain ⟨τ, failed⟩ := parseInto_of_run fresh failed
  obtain ⟨e', unlexed⟩ | ⟨tokens, cut⟩ := eq_error_or_eq_ok (tokenizeFile .idl a.file a.text)
  · rw [parseInto, exec_lift_bind_error unlexed] at failed
    cases failed
    exact .unlexed unlexed
  · rw [parseInto, exec_lift_bind cut] at failed
    obtain ⟨place, path, failed⟩ := (document_reads _ _ _ _ _ _).error failed
    have reads : a.ReadsTo files place := ⟨tokens, cut, path⟩
    have building := (reads.building fresh).1
    have behind : place.rest <:+ tokens.tokens :=
      path.rest_suffix (loadInclude_steady _) fresh.building
    rcases (declaration_fails (fun _ => .inl) (fun _ _ => blames_of_include fresh reads)
      building.wf (fun _ made _ => blames_of_add fresh reads made) behind).error failed with
      fault | fails
    · exact .refused cut fault
    · exact fails_of_include fresh reads rfl fails

namespace Opens

theorem fresh (opens : a.Opens files b) (outer : a.Fresh) : b.Fresh := by
  cases opens with
  | intro reads _ _ unknown _ => exact ⟨(reads.building outer).1.wf, unknown⟩

theorem pending (opens : a.Opens files b) (fresh : a.Fresh) :
    b.start.set.pending = a.name :: a.start.set.pending := by
  cases opens with
  | intro reads => exact reads.pending fresh

/-- Fewer models are left to be loaded inside of a load. -/
theorem unknown_ssubset (opens : a.Opens files b) (fresh : a.Fresh) :
    unknown files b.opened.set ⊂ unknown files a.opened.set := by
  cases opens with
  | intro reads _ named new content =>
      have member := FileTree.mem_modelNames_of_text? content named
      exact (unknown_reserve_ssubset member new).trans_subset
        (unknown_subset files (reads.progress fresh))

end Opens

/-- What holds of a load that fails, if it holds of those that it opens and that fail with the same
error, holds of all of them. -/
@[elab_as_elim]
theorem failure_induction {motive : Frame → Prop} {a : Frame} (fresh : a.Fresh)
    (failed : (a.run files).1 = .error e)
    (step : ∀ a : Frame, a.Fresh → a.Fails files e →
      (∀ b, a.Opens files b → (b.run files).1 = .error e → motive b) → motive a) : motive a := by
  -- On the number of models that are left to be loaded inside of the load.
  induction left : (unknown files a.opened.set).card using Nat.strongRecOn generalizing a with
  | ind _ ih =>
      refine step a fresh (fails_of_run fresh failed) fun b opens failed => ?_
      have fewer := Finset.card_lt_card (opens.unknown_ssubset fresh)
      exact ih _ (left ▸ fewer) (opens.fresh fresh) failed rfl

/-- The model is that of a load on the chain to the second one, or of a load that was open before
the first one. -/
def Around (files : FileTree) (e : SourceError) (a inner : Frame) (n : String) : Prop :=
  n ∈ a.start.set.pending ∨
    ∃ outer, a.Chain files e outer ∧ outer.Chain files e inner ∧ outer.name = n

variable {inner : Frame} {n : String}

theorem Around.of_mem (chain : a.Chain files e inner)
    (pending : n ∈ a.name :: a.start.set.pending) : a.Around files e inner n := by
  rcases List.mem_cons.mp pending with rfl | before
  · exact .inr ⟨a, .refl, chain, rfl⟩
  · exact .inl before

theorem Around.of_opens (opens : a.Opens files b) (failed : (b.run files).1 = .error e)
    (fresh : a.Fresh) (chain : b.Chain files e inner) (around : b.Around files e inner n) :
    a.Around files e inner n := by
  rcases around with pending | ⟨outer, front, further, name⟩
  · rw [opens.pending fresh] at pending
    exact .of_mem (.head ⟨opens, failed⟩ chain) pending
  · exact .inr ⟨outer, .head ⟨opens, failed⟩ front, further, name⟩

/-- An error of the model is from the file of the last load that is open. It tells of no conflict,
unless this file includes a model whose load is open. -/
theorem model_error {file : String} {pos : Position} {cause : ModelError} (fresh : a.Fresh)
    (failed : (a.run files).1 = .error (.model file pos cause)) :
    ∃ inner, a.Chain files (.model file pos cause) inner ∧ inner.file = file ∧
      (cause.isConflict = false ∨ ∃ n, cause = .circularInclude n ∧ inner.Includes files n ∧
        a.Around files (.model file pos cause) inner n) := by
  refine failure_induction fresh failed fun a fresh fails ih => ?_
  cases fails with
  | unlexed failed =>
      obtain ⟨_, _, isParse⟩ := tokenizeFile_error failed
      cases isParse
  | unread failed =>
      rcases readSource_fails.error failed with ⟨_, _, isRead⟩ | ⟨_, isFetch⟩
      · cases isRead
      · cases isFetch
  | refused _ fault =>
      cases fault with
      | model _ allowed =>
          refine ⟨a, .refl, rfl, allowed.imp_right ?_⟩
          rintro ⟨n, rfl, includes, pending⟩
          exact ⟨n, rfl, includes, .of_mem .refl pending⟩
  | nested opens failed =>
      obtain ⟨inner, chain, isFile, allowed⟩ := ih _ opens failed
      refine ⟨inner, .head ⟨opens, failed⟩ chain, isFile, allowed.imp_right ?_⟩
      rintro ⟨n, rfl, includes, around⟩
      exact ⟨n, rfl, includes, around.of_opens opens failed fresh chain⟩

end Frame

end Load

namespace Session

open Load

variable {s : ModelSet} {files : FileTree} {name text file : String} {origin : SourceRef}
  {log : List LoadEvent} {pos : Position} {cause : ModelError}

/-- When an unknown model is parsed between the steps of a session, no error tells of a model that
exists already or of a type that is registered already, whichever file it is from. An error of the
model is from the file of the last load that is open at the time. If it tells of a cycle, this file
includes the model that it names, and the load of that model is open, too. -/
theorem conflicts_while_parsing (session : Leads .empty s) (unknown : ¬ s.Knows name)
    (failed : ((parseModel files name text origin).exec ⟨s, log⟩).1 =
      .error (.model file pos cause)) :
    let first : Frame := ⟨name, text, origin, ⟨s, log⟩⟩
    let error : SourceError := .model file pos cause
    (∀ n, cause ≠ .duplicateModel n) ∧ (∀ n, cause ≠ .typeAlreadyRegistered n) ∧
      ∃ last, first.Chain files error last ∧ last.file = file ∧
        ∀ n, cause = .circularInclude n → last.Includes files n ∧
          ∃ outer, first.Chain files error outer ∧ outer.Chain files error last ∧
            outer.name = n := by
  intro first error
  have fresh : first.Fresh := ⟨session.wellFormed .empty, unknown⟩
  obtain ⟨last, chain, isFile, harmless | ⟨n, rfl, includes, around⟩⟩ :=
    Frame.model_error fresh failed
  · have other (conflict : ModelError) (isConflict : conflict.isConflict = true) :
        cause ≠ conflict := by
      rintro rfl
      rw [harmless] at isConflict
      cases isConflict
    exact ⟨fun n => other _ rfl, fun n => other _ rfl, last, chain, isFile,
      fun n circular => absurd circular (other _ rfl)⟩
  · refine ⟨by simp, by simp, last, chain, isFile, ?_⟩
    rintro _ ⟨⟩
    refine ⟨includes, around.resolve_left ?_⟩
    -- No load is open between the steps of a session.
    simp [first, session.pending]

/-- After a load that failed over a cycle of a file and a page, a text includes the file. The error
is from the page, and the load of the file is open around it. -/
theorem conflicts_while_parsing_into_cycle :
    let files : FileTree :=
      ⟨[], [(["a.thrift"], .file (.text "struct A \x7b\x7d include \"http://h/b.thrift\""))],
        [("http://h/b.thrift", "include \"/a.thrift\"")]⟩
    let s := (((Call.load (.file "a.thrift")).run files (Load.maxDepth files)).exec {}).2.set
    let first : Frame := ⟨"m", "include \"a.thrift\"", .nowhere, ⟨s, []⟩⟩
    let error : SourceError := .model "http://h/b.thrift" ⟨1, 9⟩ (.circularInclude "a")
    (first.run files).1 = .error error ∧ ∃ last, first.Chain files error last ∧
      last.file = "http://h/b.thrift" ∧ last.Includes files "a" ∧
        ∃ outer, first.Chain files error outer ∧ outer.Chain files error last ∧
          outer.name = "a" := by
  intro files s first error
  have session : Leads .empty s := .single (.call _ files _ _ [])
  have unknown : ¬ s.Knows "m" := by decide +kernel
  have failed : (first.run files).1 = .error error := eq_error_of_refusal? (by decide +kernel)
  obtain ⟨_, _, last, chain, isFile, cycle⟩ := conflicts_while_parsing session unknown failed
  exact ⟨failed, last, chain, isFile, cycle "a" rfl⟩

end Session

end IdlGen
