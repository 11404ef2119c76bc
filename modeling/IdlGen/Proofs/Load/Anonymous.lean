import IdlGen.Proofs.Idl.Additions
import IdlGen.Proofs.Load.References

/-!
# Texts without a model name

A model without a name is never pending, so there is nothing to abandon when its text fails: the
types that were declared before the failure stay in the registry, under their bare names. They are
exactly the types of the model as it was read up to the declaration that fails. Everything else that
is new belongs to models that were loaded on the way.

Such a name is lost for good. No later text without a model name can declare a type of that name,
not even the same text with its fault corrected.
-/

namespace IdlGen

open Idl LoadM

theorem Ty.qname_eq_name {t : Ty} (unowned : t.modelName? = none) : t.qname = t.name := by
  rw [t.qname_eq_qualify, unowned]
  rfl

namespace Load

variable {load : Loader} {text : String} {origin : SourceRef} {σ τ : LoadState} {m : Model}
variable {e : SourceError}

/-- A text is read as the given model up to a declaration that fails, or it is no text of tokens at
all, and then nothing of it is read. -/
inductive StopsAt (load : Loader) (text : String) (origin : SourceRef) (σ : LoadState) :
    Model → SourceError → LoadState → Prop
  | untokenized {e : SourceError} (failed : tokenizeFile .idl origin.render text = .error e) :
      StopsAt load text origin σ { name := none } e σ
  | refused {tokens : TokenList} {r : Reader} {b : Place} {e : SourceError} {τ : LoadState}
      (cut : tokenizeFile .idl origin.render text = .ok tokens)
      (reader : r = ⟨origin.label "<anonymous>", tokens.eof⟩)
      (reads : Reads r origin load ⟨{ name := none }, tokens.tokens, σ⟩ b)
      (failed : (declaration r origin load b.model b.rest).exec b.state = (.error e, τ)) :
      StopsAt load text origin σ b.model e τ

/-- A text without a model name is read to its end, or it stops on the way. -/
theorem parseAnonymousWith_reads (load : Loader) (text : String) (origin : SourceRef)
    (σ : LoadState) :
    (parseAnonymousWith load text origin).WP
      (fun m _ => ∃ r toks τ, Reads r origin load ⟨{ name := none }, toks, σ⟩ ⟨m, [], τ⟩)
      (fun e τ => ∃ m, StopsAt load text origin σ m e τ) σ := by
  apply WP.bind_iff.mpr
  apply WP.bind_iff.mpr
  refine WP.lift_iff.mpr ⟨fun tokens cut => ?_, fun e failed => ?_⟩
  · refine WP.mono (document_reads _ origin load _ tokens.tokens σ) ?_ ?_
    · intro m τ reads
      exact ⟨_, _, τ, reads⟩
    · rintro e τ ⟨b, reads, failed⟩
      exact ⟨b.model, .refused cut rfl reads failed⟩
  · exact ⟨_, .untokenized failed⟩

/-- What is left of a text that stops. -/
theorem StopsAt.leaves (stops : StopsAt load text origin σ m e τ) (steady : load.Steady)
    (wf : σ.set.WellFormed) :
    σ.set.Setback (· ∈ m.named) τ.set ∧ ∀ t ∈ m.named, τ.set.Holds t ∧ t.isNamed = true ∧
      t.modelName? = none ∧ σ.set.type? t.qname = none := by
  have start : Model.Building { name := none } σ.set := building_nil wf (by simp)
  cases stops with
  | untokenized failed => exact ⟨(ModelSet.Progress.refl wf).setback, by simp [Model.named]⟩
  | refused _ _ reads failed =>
      obtain ⟨building, name⟩ := reads.building steady start
      obtain ⟨made, fresh⟩ := reads.registers steady start rfl
      -- The declaration that fails has added nothing itself, so only those before it count.
      have nothing := (declaration_adds steady building.wf).error failed
      refine ⟨made.trans_setback (nothing.mono fun _ => False.elim), fun t member => ?_⟩
      obtain ⟨held, isNamed, owner⟩ := building.sound.declared t member
      exact ⟨nothing.holds held, isNamed, owner.trans name, fresh t member⟩

/-- A text without a model name declares types under names that were free. -/
theorem parseAnonymousWith_fresh (steady : load.Steady) (wf : σ.set.WellFormed)
    (run : (parseAnonymousWith load text origin).exec σ = (.ok m, τ)) :
    ∀ t ∈ m.named, σ.set.type? t.name = none := by
  have start : Model.Building { name := none } σ.set := building_nil wf (by simp)
  obtain ⟨_, _, _, reads⟩ := (parseAnonymousWith_reads load text origin σ).ok run
  obtain ⟨building, name⟩ := reads.building steady start
  intro t member
  have unowned := (building.sound.declared t member).2.2.trans name
  rw [← Ty.qname_eq_name unowned]
  exact (reads.registers steady start rfl).2 t member

end Load

/-- Every named type that is new belongs to a named model that is loaded. -/
def ModelSet.OwnedByLoaded (s s' : ModelSet) : Prop :=
  ∀ k t, s'.type? k = some t → s.type? k = none → t.isNamed = true →
    ∃ n, t.modelName? = some n ∧ s'.isLoaded n = true

theorem ModelSet.Setback.loaded_owner {D : Ty → Prop} {s s' : ModelSet} {k : String} {t : Ty}
    (h : s.Setback D s') (found : s'.type? k = some t) (free : s.type? k = none)
    (isNamed : t.isNamed = true) :
    D t ∨ ∃ n, t.modelName? = some n ∧ s'.isLoaded n = true := by
  refine (h.owner found free isNamed).imp_right ?_
  rintro ⟨m, new, n, name, declares⟩
  exact ⟨n, declares, isLoaded_iff.mpr ⟨m, List.mem_of_mem_drop new, name⟩⟩

/-- A model without a name cannot declare a type whose bare name stands for one. -/
theorem Declaration.refused_of_taken {d : Declaration} {s : ModelSet} {m : Model} {t : Ty}
    (wf : s.WellFormed) (taken : s.type? d.name = some t) (anonymous : m.name = none)
    (isType : (d.type? s.stamps.next none).isSome = true)
    (checked : m.checkNew s d.name = .ok ()) :
    d.add s m = .error (.typeAlreadyRegistered d.name) := by
  obtain ⟨u, type⟩ := Option.isSome_iff_exists.mp isType
  obtain ⟨_, _, unowned, name⟩ := type?_eq_some type
  have bare : u.qname = d.name := (Ty.qname_eq_name unowned).trans name
  rw [← anonymous] at type
  rw [← bare] at taken ⊢
  exact add_of_taken wf checked type taken

/-- The error of a computation that failed. -/
def refusal? {α : Type} : Except SourceError α → Option SourceError
  | .ok _ => none
  | .error e => some e

theorem eq_error_of_refusal? {α : Type} {x : Except SourceError α} {e : SourceError}
    (h : refusal? x = some e) : x = .error e := by
  cases x with
  | ok a => cases h
  | error e' => exact congrArg _ (Option.some.inj h)

namespace Session

variable {s : ModelSet}

/-- When a text without a model name fails, the new types that belong to no loaded model are those
of the model as far as it was read. So nothing is left exactly if it had declared no type by then. A
type that is left stays for good, and every later declaration of a type of that name in a model
without a name is refused because of it. -/
theorem leftovers_of_failed_text (session : Leads .empty s) (files : FileTree) (text : String)
    (origin : SourceRef) (log : List LoadEvent) {e : SourceError} {τ : LoadState}
    (failed : (parseAnonymousModel files text origin).exec ⟨s, log⟩ = (.error e, τ)) :
    ∃ m, Load.StopsAt (Load.loader files) text origin ⟨s, log⟩ m e τ ∧
      (s.OwnedByLoaded τ.set ↔ m.named = []) ∧
      (∀ k t, τ.set.type? k = some t → s.type? k = none → t.isNamed = true →
        t ∈ m.named ∨ ∃ n, t.modelName? = some n ∧ τ.set.isLoaded n = true) ∧
      ∀ t ∈ m.named, t.isNamed = true ∧ t.modelName? = none ∧ s.type? t.name = none ∧
        ∀ s', Leads τ.set s' → s'.type? t.name = some t ∧
          (∀ m' (d : Declaration), m'.name = none → d.name = t.name →
            (d.type? s'.stamps.next none).isSome = true → m'.checkNew s' d.name = .ok () →
              d.add s' m' = .error (.typeAlreadyRegistered t.name)) ∧
          ∀ files' text' origin' log' m' τ',
            (parseAnonymousModel files' text' origin').exec ⟨s', log'⟩ = (.ok m', τ') →
              ∀ u ∈ m'.named, u.name ≠ t.name := by
  have wf : s.WellFormed := session.wellFormed .empty
  have steady : (Load.loader files).Steady := Load.loadInclude_steady _
  obtain ⟨m, stops⟩ :=
    (Load.parseAnonymousWith_reads (Load.loader files) text origin ⟨s, log⟩).error failed
  obtain ⟨setback, leftover⟩ := stops.leaves steady wf
  refine ⟨m, stops, ⟨fun owned => ?_, fun clean k t found free isNamed => ?_⟩,
    fun k t found free isNamed => setback.loaded_owner found free isNamed, fun t member => ?_⟩
  · refine List.eq_nil_iff_forall_not_mem.mpr fun t member => ?_
    obtain ⟨held, isNamed, unowned, free⟩ := leftover t member
    obtain ⟨n, declares, _⟩ := owned _ t held free isNamed
    rw [unowned] at declares
    cases declares
  · exact (setback.loaded_owner found free isNamed).resolve_left (by simp [clean])
  · obtain ⟨held, isNamed, unowned, free⟩ := leftover t member
    have bare := Ty.qname_eq_name unowned
    refine ⟨isNamed, unowned, bare ▸ free, fun s' leads => ?_⟩
    have wf' : s'.WellFormed := leads.wellFormed setback.wellFormed
    have taken : s'.type? t.name = some t := bare ▸ leads.holds setback.wellFormed held
    refine ⟨taken, fun m' d anonymous name isType checked => ?_, ?_⟩
    · rw [← name] at taken ⊢
      exact Declaration.refused_of_taken wf' taken anonymous isType checked
    · intro files' text' origin' log' m' τ' run u member same
      have steady' : (Load.loader files').Steady := Load.loadInclude_steady _
      have free := Load.parseAnonymousWith_fresh (σ := ⟨s', log'⟩) steady' wf' run u member
      rw [same, taken] at free
      cases free

/-- A text with a struct and a fault behind it: the struct stays, and the text without its fault is
refused because of it. -/
theorem leftovers_of_struct_before_fault :
    let out := (parseAnonymousModel (.empty []) "struct S \x7b\x7d struct \x7b" .nowhere).exec {}
    let again :=
      (parseAnonymousModel (.empty []) "struct S \x7b\x7d" .nowhere).exec ⟨out.2.set, []⟩
    (out.1.toOption.isNone = true ∧ ∃ t, out.2.set.type? "S" = some t ∧ t.modelName? = none) ∧
      ¬ ModelSet.empty.OwnedByLoaded out.2.set ∧
      refusal? again.1 = some (.model "<anonymous>" ⟨1, 8⟩ (.typeAlreadyRegistered "S")) := by
  intro out again
  have failed : out.1.toOption.isNone = true := by decide +kernel
  have left : (out.2.set.type? "S").map (fun t => (t.isNamed, t.modelName?)) =
      some (true, none) := by decide +kernel
  obtain ⟨t, found, isStruct⟩ := Option.map_eq_some_iff.mp left
  obtain ⟨isNamed, unowned⟩ := Prod.mk.inj isStruct
  have new : ModelSet.empty.type? "S" = none := by decide
  refine ⟨⟨failed, t, found, unowned⟩, ?_, by decide +kernel⟩
  cases result : out.1 with
  | ok m =>
      rw [result] at failed
      cases failed
  | error e =>
      obtain ⟨m, _, clean, owners, _⟩ :=
        leftovers_of_failed_text (.refl) (.empty []) _ .nowhere [] (Prod.ext result rfl)
      intro owned
      rcases owners "S" t found new isNamed with member | ⟨n, owner, _⟩
      · rw [clean.mp owned] at member
        cases member
      · rw [unowned] at owner
        cases owner

end Session

end IdlGen
