import IdlGen.Proofs.Load.Session

/-!
# Coherence and rollback

Whatever was loaded before, and whether or not it failed, the registry is coherent: names, types,
elements and models fit together. A call only adds to the set. If it fails, nothing remains of its
own model, and what is new belongs to models that were completed on the way.
-/

namespace IdlGen

/-- Names, types, elements and models of a set fit together. -/
structure ModelSet.Coherent (s : ModelSet) : Prop where
  /-- A type is registered under its own name. -/
  keyed : ∀ k t, (k, t) ∈ s.types → t.qname = k
  /-- The elements of a registered container are registered themselves. -/
  elements : ∀ k t, (k, t) ∈ s.types → ∀ e ∈ t.elements, s.type? e.qname = some e
  /-- A registered type belongs to a model that is loaded or being built. -/
  owners : ∀ k t n, (k, t) ∈ s.types → t.modelName? = some n →
    s.isLoaded n = true ∨ s.isPending n = true
  /-- What a loaded model declares is registered. -/
  declared : ∀ m ∈ s.models, ∀ t ∈ m.enums ++ m.structs ++ m.exceptions,
    s.type? t.qname = some t

theorem ModelSet.WellFormed.coherent {s : ModelSet} (wf : s.WellFormed) : s.Coherent := by
  have held : ∀ {k t}, (k, t) ∈ s.types → s.Holds t :=
    fun member => wf.holds (type?_of_mem wf.nodup member)
  exact {
    keyed := fun k t member => wf.keyed (type?_of_mem wf.nodup member)
    elements := fun k t member e inside => wf.elements (held member) inside
    owners := fun k t n member declares => wf.known (held member) declares
    declared := fun m member t inModel => (wf.declared member inModel).1 }

namespace Session

open Idl LoadM

variable {s : ModelSet}

/-- The registry is coherent at every moment, and after every nested load that starts there. -/
theorem coherent_of_moment (moment : Moment s) :
    s.Coherent ∧ ∀ files depth source log,
      ((Load.loadInclude files depth source).exec ⟨s, log⟩).2.set.Coherent := by
  refine ⟨moment.wellFormed.coherent, fun files depth source log => ?_⟩
  have ended : Moment ((Load.loadInclude files depth source).exec ⟨s, log⟩).2.set :=
    Later.nested moment
  exact ended.wellFormed.coherent

/-- After a model with a list, a second one is at its include. -/
theorem coherent_at_nested_load :
    let call := Call.parse "a" "struct T \x7b 1: list<i32> xs \x7d" .nowhere
    let s := ((call.run (.empty []) 1).exec {}).2.set.reserve "m"
    Moment s ∧ s.isLoaded "a" = true ∧ s.isPending "m" = true ∧ s.Coherent := by
  intro call s
  let σ := ((call.run (.empty []) 1).exec {}).2
  have start : Later .empty σ.set := .step (.refl _) (.call _ _ _ call [])
  have unknown : ¬ σ.set.Knows "m" := by
    unfold ModelSet.Knows
    decide +kernel
  have new : ¬ s.Knows "inc" := by
    unfold ModelSet.Knows
    decide +kernel
  have front : (tokenizeFile .idl "m" "include \"inc.thrift\"").toOption.map (·.tokens) =
      some [⟨.word, "include", ⟨1, 1⟩, none⟩, ⟨.string, "\"inc.thrift\"", ⟨1, 9⟩, none⟩] := by
    decide +kernel
  have decoded : (Spelling.decodeString "\"inc.thrift\"").toOption = some "inc.thrift" := by
    decide +kernel
  have asked : Asks ((Call.parse "m" "include \"inc.thrift\"" .nowhere).runWith (.empty []))
      (Load.loadInclude (.empty []) 1) σ (SourceRef.nowhere.parent.child "inc.thrift") ⟨s, _⟩ :=
    parse_asks "m" _ .nowhere unknown front ⟨rfl, rfl⟩ rfl decoded (by decide +kernel) new _
  have moment : Moment s := start.enter asked
  exact ⟨moment, by decide +kernel, by decide +kernel, (coherent_of_moment moment).1⟩

/-- A call keeps pending names, models and types. If it fails, nothing that is registered belongs to
its own model, and new named types belong to models that the call loaded completely. -/
theorem rollback_of_call (moment : Moment s) (files : FileTree) (depth : Nat) (call : Call)
    (log : List LoadEvent) :
    let out := (call.run files depth).exec ⟨s, log⟩
    let s' := out.2.set
    s'.pending = s.pending ∧ s.models <+: s'.models ∧
      (∀ k t, s.type? k = some t → s'.type? k = some t) ∧
      ∀ e n created, out.1 = .error e → call.name? = some n → s.create n = .ok created →
        (∀ k t, s'.type? k = some t → ∀ p ∈ t.parts, p.modelName? ≠ some n) ∧
        ∀ k t, s'.type? k = some t → s.type? k = none → t.isNamed = true →
          ∃ m ∈ s'.models.drop s.models.length, ∃ owner,
            m.name = some owner ∧ t.modelName? = some owner := by
  intro out s'
  have wf := moment.wellFormed
  have grown := (Step.call s files depth call log).setback wf
  have wf' : s'.WellFormed := grown.wellFormed
  refine ⟨grown.pending, grown.isPrefix, fun k t found => grown.type? wf found, ?_⟩
  rintro e n ⟨_, _⟩ failed named created
  obtain ⟨unknown, _, _⟩ := ModelSet.create_eq_ok_iff.mp created
  obtain ⟨setback, unknown'⟩ :=
    (call.leaves (σ := ⟨s, log⟩) wf named).error (Prod.ext failed rfl)
  constructor
  · intro k t found p part declares
    exact unknown' n rfl unknown (wf'.known (wf'.parts (wf'.holds found) p part) declares)
  · intro k t found free isNamed
    exact (setback.owner found free isNamed).resolve_left id

/-- A text that fails after its include: the included model stays. -/
theorem rollback_of_failed_parse :
    let files := (FileTree.empty []).place ["inc.thrift"] (.file (.text "enum E \x7b A \x7d"))
    let call := Call.parse "m" "struct S \x7b\x7d include \"inc.thrift\" struct \x7b" .nowhere
    let out := (call.run files 2).exec {}
    out.1.toOption.isNone = true ∧ out.2.set.isLoaded "inc" = true ∧ out.2.set.pending = [] ∧
      ∀ k t, out.2.set.type? k = some t → ∀ p ∈ t.parts, p.modelName? ≠ some "m" := by
  intro files call out
  have failed : out.1.toOption.isNone = true := by decide +kernel
  have kept := rollback_of_call (.refl _) files 2 call []
  refine ⟨failed, by decide +kernel, kept.1, ?_⟩
  cases result : out.1 with
  | ok m =>
      rw [result] at failed
      cases failed
  | error e => exact (kept.2.2.2 e "m" _ result rfl rfl).1

end Session

end IdlGen
