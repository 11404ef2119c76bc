import IdlGen.Proofs.Load.Asks
import Mathlib.Logic.Relation

/-!
# Sessions and their moments

A session is a sequence of calls that load models, each of which may fail, and of requests for
containers over registered types. The moments of a session are the states between two steps, and
inside a call those at which the load of an include starts or ends, however deep the includes nest.

What holds of every moment is proved from one fact for each kind of step. `Later` orders the moments
of a session, so that a statement can also compare two of them.
-/

namespace IdlGen.Session

open Idl LoadM

/-- A call that loads a model. -/
inductive Call where
  | parse (name text : String) (origin : SourceRef)
  | load (source : SourceRef)
  | anonymous (text : String) (origin : SourceRef)

namespace Call

/-- The name of the model that a call loads. -/
def name? : Call → Option String
  | parse name _ _ => some name
  | load source => source.modelName?
  | anonymous _ _ => none

/-- A call with its loader for includes. -/
def runWith (files : FileTree) (call : Call) (load : Loader) : LoadM Model :=
  match call with
  | parse name text origin => Load.parseWith load name text origin
  | .load source => Load.loadWith load files source
  | anonymous text origin => Load.parseAnonymousWith load text origin

/-- A call whose includes may nest `depth` times. -/
def run (files : FileTree) (depth : Nat) (call : Call) : LoadM Model :=
  call.runWith files (Load.loadInclude files depth)

variable {files : FileTree} {depth : Nat} {name text : String} {origin source : SourceRef}

@[simp] theorem run_parse :
    (parse name text origin).run files (Load.maxDepth files) = parseModel files name text origin :=
  rfl

@[simp] theorem run_load :
    (load source).run files (Load.maxDepth files) = loadModel files source := rfl

@[simp] theorem run_anonymous :
    (anonymous text origin).run files (Load.maxDepth files) =
      parseAnonymousModel files text origin := rfl

variable {call : Call} {σ τ : LoadState}

/-- A call for a named model leaves what loading leaves. -/
theorem leaves {n : String} (wf : σ.set.WellFormed) (named : call.name? = some n) :
    Load.Leaves (some n) (call.run files depth) σ := by
  have steady : (Load.loadInclude files depth).Steady := Load.loadInclude_steady depth
  cases call with
  | parse name text origin =>
      cases named
      exact Load.parseWith_leaves steady wf
  | load source =>
      rw [← named]
      exact Load.loadWith_leaves steady wf
  | anonymous text origin => cases named

/-- A call grows the set. Only a model without a name adds types that belong to no model. -/
theorem declares (wf : σ.set.WellFormed) :
    Declares (·.modelName? = none) (call.run files depth) (fun _ _ => True) σ := by
  have steady : (Load.loadInclude files depth).Steady := Load.loadInclude_steady depth
  cases call with
  | parse name text origin => exact (Load.parseWith_leaves steady wf).declares.widen nofun
  | load source => exact (Load.loadWith_leaves steady wf).declares.widen nofun
  | anonymous text origin => exact Load.parseAnonymousWith_declares steady wf

/-- A nested load lies between the start and the end of the call. -/
theorem asks {load : Loader} (steady : load.Steady) (wf : σ.set.WellFormed)
    (asked : Asks (call.runWith files) load σ source τ) :
    Load.Within load source τ σ ((call.runWith files load).exec σ).2 := by
  cases call with
  | parse name text origin => exact Load.parseWith_asks steady wf asked
  | load source' => exact Load.loadWith_asks steady wf asked
  | anonymous text origin => exact Load.parseAnonymousWith_asks steady wf asked

end Call

/-- A text that begins with the include of an unknown model asks for it, with its own name
pending. -/
theorem parse_asks {files : FileTree} {σ : LoadState} (name text : String) (origin : SourceRef)
    {keyword path : Token} {rest : List Token} {file included : String}
    (unknown : ¬ σ.set.Knows name)
    (front : (tokenizeFile .idl (origin.label name) text).toOption.map (·.tokens) =
      some (keyword :: path :: rest))
    (isInclude : keyword.kind = .word ∧ keyword.text = "include") (isPath : path.kind = .string)
    (decoded : (Spelling.decodeString path.text).toOption = some file)
    (named : (origin.parent.child file).modelName? = some included)
    (new : ¬ (σ.set.reserve name).Knows included) (load : Loader) :
    Asks ((Call.parse name text origin).runWith files) load σ (origin.parent.child file)
      ⟨σ.set.reserve name,
        σ.log ++ [.includes (origin.label name) (origin.parent.child file)]⟩ := by
  have created := ModelSet.create_eq_ok_iff.mpr ⟨unknown, rfl, rfl⟩
  obtain ⟨tokens, cut, front⟩ := Option.map_eq_some_iff.mp front
  refine Interrupts.asks ?_ load
  change Interrupts (fun l => Load.parseWith l name text origin) _ _ _
  unfold Load.parseWith
  refine .bind_right (y := getSet) rfl ?_
  simp only [created]
  refine .bind_right (y := setSet _) rfl (.tryCatch (.bind_left ?_) fun _ _ => rfl)
  unfold Load.parseInto
  refine .lift_bind (eq_ok_of_toOption cut) ?_
  rw [front]
  exact document_interrupts isInclude isPath (eq_ok_of_toOption decoded) named new

/-- One step of a session: a call, or a request for a container over registered types. -/
inductive Step : ModelSet → ModelSet → Prop
  | call (s : ModelSet) (files : FileTree) (depth : Nat) (call : Call) (log : List LoadEvent) :
      Step s ((call.run files depth).exec ⟨s, log⟩).2.set
  | request {s : ModelSet} {c : Container} (held : ∀ e ∈ c.elements, s.Holds e) :
      Step s (c.request s).2

/-- A session leads from one set to another in any number of steps. -/
def Leads : ModelSet → ModelSet → Prop := Relation.ReflTransGen Step

/-- A session that is at the first set at one moment is at the second set at a later one. -/
inductive Later : ModelSet → ModelSet → Prop
  | refl (s : ModelSet) : Later s s
  | step {s s' s'' : ModelSet} : Later s s' → Step s' s'' → Later s s''
  /-- Into a call, to the start of a nested load. -/
  | enter {s s' : ModelSet} {files : FileTree} {depth : Nat} {call : Call} {log : List LoadEvent}
      {source : SourceRef} {τ : LoadState} :
      Later s s' → Asks (call.runWith files) (Load.loadInclude files depth) ⟨s', log⟩ source τ →
      Later s τ.set
  /-- From the end of a nested load to the end of the call that asked for it. -/
  | leave {s s' : ModelSet} {files : FileTree} {depth : Nat} {call : Call} {log : List LoadEvent}
      {source : SourceRef} {τ : LoadState} :
      Later .empty s' →
      Asks (call.runWith files) (Load.loadInclude files depth) ⟨s', log⟩ source τ →
      Later s ((Load.loadInclude files depth source).exec τ).2.set →
      Later s ((call.run files depth).exec ⟨s', log⟩).2.set

/-- A moment of a session that starts with the empty set. -/
def Moment (s : ModelSet) : Prop := Later .empty s

variable {s s' : ModelSet}

theorem Step.setback (wf : s.WellFormed) (step : Step s s') :
    s.Setback (·.modelName? = none) s' := by
  cases step with
  | call files depth call log => exact (call.declares (σ := ⟨s, log⟩) wf).setback
  | request held => exact (Container.request_progress wf held).1.setback

/-- The set is well-formed at every moment, and types keep their identity from one to the next. -/
theorem Later.evolves (later : Later s s') (wf : s.WellFormed) :
    s'.WellFormed ∧ s.Evolves s' := by
  induction later with
  | refl s => exact ⟨wf, .refl s⟩
  | step _ step ih =>
      obtain ⟨wf', evolves⟩ := ih wf
      have setback := step.setback wf'
      exact ⟨setback.wellFormed, evolves.trans wf (.of_setback setback)⟩
  | enter _ asked ih =>
      obtain ⟨wf', evolves⟩ := ih wf
      have nested := Call.asks (Load.loadInclude_steady _) wf' asked
      exact ⟨nested.wf, evolves.trans wf nested.before⟩
  | leave _ asked _ ihStart ihEnd =>
      obtain ⟨start, _⟩ := ihStart .empty
      obtain ⟨_, evolves⟩ := ihEnd wf
      have nested := Call.asks (Load.loadInclude_steady _) start asked
      exact ⟨(Call.declares start).setback.wellFormed, evolves.trans wf nested.after⟩

theorem Moment.wellFormed (moment : Moment s) : s.WellFormed :=
  (Later.evolves moment .empty).1

/-- A nested load ends at a moment, if it starts at one. -/
theorem Later.nested {files : FileTree} {depth : Nat} {source : SourceRef} {τ : LoadState}
    (start : Later s τ.set) : Later s ((Load.loadInclude files depth source).exec τ).2.set := by
  cases depth with
  | zero =>
      have unread : (Load.loadInclude files 0 source).WP (fun _ υ => υ.set = τ.set)
          (fun _ υ => υ.set = τ.set) τ :=
        WP.bind_iff.mpr (readSource_wp (fun _ _ => id) fun _ _ => id)
      rwa [unread.both]
  | succ depth =>
      have loaded : ((Load.loadInclude files (depth + 1) source).exec τ).2 =
          (((Call.load source).run files depth).exec τ).2 := by
        change ((Load.loadWith _ files source >>= fun _ => pure ()).exec τ).2 =
          ((Load.loadWith _ files source).exec τ).2
        rw [exec_bind]
        split
        · rename_i out
          rw [out]
          rfl
        · rename_i out
          rw [out]
      rw [loaded]
      exact start.step (.call τ.set files depth (.load source) τ.log)

end IdlGen.Session
