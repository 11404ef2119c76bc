import IdlGen.Proofs.Load.Depth
import IdlGen.Proofs.Load.References
import IdlGen.Proofs.Load.Visits

/-!
# Includes

Loading a model together with all that it includes comes to an end, opens every model at most once,
and leaves the models of the set in an order in which includes point backwards only. That holds from
every set that calls can lead to, whether they failed or not.
-/

namespace IdlGen.Session

open Idl LoadM

/-- The models that a call opens: the one whose text it is given, and those whose files it reads. -/
def Call.opens (call : Call) (events : List LoadEvent) : List String :=
  match call with
  | parse name _ _ => name :: readNames events
  | _ => readNames events

variable {σ : LoadState} {s : ModelSet}

/-- A call opens each model once, and keeps the models in order. -/
theorem Call.opens_once (call : Call) (files : FileTree) (depth : Nat) (wf : σ.set.WellFormed) :
    (∃ events, ((call.run files depth).exec σ).2.log = σ.log ++ events ∧
      (call.opens events).Nodup) ∧
      (σ.set.Ordered → ((call.run files depth).exec σ).2.set.Ordered) := by
  have once : (Load.loadInclude files depth).Once := Load.loadInclude_once depth
  have steady : (Load.loadInclude files depth).Steady := Load.loadInclude_steady depth
  cases call with
  | parse name text origin =>
      obtain ⟨names, visit⟩ := (Load.parseWith_opens (σ := σ) once steady wf).begun
      obtain ⟨events, log, read⟩ := visit.reads
      refine ⟨⟨events, log, ?_⟩, fun ordered => visit.ordered (ordered.of_models rfl)⟩
      change (name :: readNames events).Nodup
      rw [read]
      exact visit.nodup_cons
  | load source =>
      change (∃ events, ((Load.loadWith (Load.loadInclude files depth) files source).exec σ).2.log =
        σ.log ++ events ∧ (readNames events).Nodup) ∧ (_ → ModelSet.Ordered
          ((Load.loadWith (Load.loadInclude files depth) files source).exec σ).2.set)
      cases named : source.modelName? with
      | none =>
          unfold Load.loadWith
          rw [named]
          exact ⟨⟨[], (List.append_nil _).symm, .nil⟩, id⟩
      | some name =>
          have opens : Load.Opens name (Load.loadWith (Load.loadInclude files depth) files source)
              { σ with log := σ.log ++ announces source } σ :=
            Load.loadWith_opens once steady wf named
          obtain ⟨names, visit⟩ := opens.begun
          obtain ⟨events, log, read⟩ := visit.reads
          refine ⟨⟨announces source ++ events, ?_, ?_⟩,
            fun ordered => visit.ordered (ordered.of_models rfl)⟩
          · rw [log, List.append_assoc]
          · rw [readNames_append, readNames_announces named, read]
            exact visit.nodup_cons
  | anonymous text origin =>
      obtain ⟨names, visit⟩ := (Load.parseAnonymousWith_visits once steady wf).begun
      obtain ⟨events, log, read⟩ := visit.reads
      refine ⟨⟨events, log, ?_⟩, visit.ordered⟩
      change (readNames events).Nodup
      rw [read]
      exact visit.nodup

theorem Leads.ordered (session : Leads .empty s) : s.Ordered := by
  induction session with
  | refl => exact .empty
  | tail front step ih =>
      have wf := Leads.wellFormed front .empty
      cases step with
      | call files depth call log => exact (call.opens_once (σ := ⟨_, log⟩) files depth wf).2 ih
      | request held => exact ih.of_models Container.request_models

/-- From every set that calls lead to, a call does not depend on how includes are loaded that nest
more deeply than there are models to be read, and it opens each model at most once. In the set, a
name leads to the one model that has it, and every model comes after those that it includes. -/
theorem includes_finite_once_ordered (session : Leads .empty s) :
    (∀ (files : FileTree) (call : Call) (log : List LoadEvent),
      (∀ bottom depth, Load.readable files < depth →
        (call.runWith files (Load.nest files bottom depth)).exec ⟨s, log⟩ =
          (call.run files (Load.maxDepth files)).exec ⟨s, log⟩) ∧
      ∃ events, ((call.run files (Load.maxDepth files)).exec ⟨s, log⟩).2.log = log ++ events ∧
        (call.opens events).Nodup) ∧
      (∀ m ∈ s.models, ∃ n, m.name = some n) ∧ (s.models.map (·.name)).Nodup ∧
      (∀ n m, s.model? n = some m ↔ m ∈ s.models ∧ m.name = some n) ∧
      ∀ (i : Nat) (m : Model), s.models[i]? = some m → ∀ n ∈ m.includes,
        ∃ j < i, ∃ m' : Model, s.models[j]? = some m' ∧ m'.name = some n := by
  have wf : s.WellFormed := session.wellFormed .empty
  have ordered := session.ordered
  refine ⟨fun files call log => ⟨fun bottom depth enough => ?_, ?_⟩, ordered.named,
    ordered.distinct, fun n m => ordered.model?_eq_some_iff, ordered.includes⟩
  · exact Call.exec_runWith_nest wf enough
  · exact (call.opens_once (σ := ⟨s, log⟩) files _ wf).1

/-- A page that two files include is loaded once, before them; then two pages that include each
other are refused, and nothing is left to the bottom on the way. -/
theorem includes_of_diamond_then_cycle :
    let text (t : String) : FileNode := .file (.text t)
    let files : FileTree := ⟨[], [(["b.thrift"], text "include \"http://h/a.thrift\""),
      (["c.thrift"], text "include \"http://h/a.thrift\""),
      (["d.thrift"], text "include \"b.thrift\" include \"c.thrift\"")],
      [("http://h/a.thrift", ""), ("http://h/e.thrift", "include \"f.thrift\""),
        ("http://h/f.thrift", "include \"e.thrift\"")]⟩
    let s := (((Call.load (.file "d.thrift")).run files (Load.maxDepth files)).exec {}).2.set
    let cycle := Call.load (.url "http://h/e.thrift")
    Leads .empty s ∧ s.models.map (·.name) = [some "a", some "b", some "c", some "d"] ∧
      (∃ j < 3, ∃ m : Model, s.models[j]? = some m ∧ m.name = some "c") ∧
      Load.readable files < 7 ∧
      ((cycle.run files (Load.maxDepth files)).exec ⟨s, []⟩).1.toOption.isNone = true ∧
      (cycle.runWith files (Load.nest files (fun _ => pure ()) 7)).exec ⟨s, []⟩ =
        (cycle.run files (Load.maxDepth files)).exec ⟨s, []⟩ := by
  intro text files s cycle
  have session : Leads .empty s := .single (.call _ files _ _ [])
  have enough : Load.readable files < 7 := by decide +kernel
  have last : (s.models[3]?.map (·.includes)) = some ["b", "c"] := by decide +kernel
  obtain ⟨d, here, includes⟩ := Option.map_eq_some_iff.mp last
  obtain ⟨calls, _, _, _, order⟩ := includes_finite_once_ordered session
  have before := order 3 d here "c" (by rw [includes]; decide)
  exact ⟨session, by decide +kernel, before, enough, by decide +kernel,
    (calls files cycle []).1 _ _ enough⟩

end IdlGen.Session
