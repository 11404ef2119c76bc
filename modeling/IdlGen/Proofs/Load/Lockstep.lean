import IdlGen.Proofs.Idl.Lockstep
import IdlGen.Proofs.Load.Contract
import IdlGen.Proofs.Token.Layout

/-!
# Loading side by side

A text that is parsed in the two sets of a twin gives models that are alike, with all the models
that it includes, or it is refused on both sides; a model that fails is abandoned on both. So the
loaders of every depth end alike.
-/

namespace IdlGen

open Idl LoadM

/-- The words of a definition file are made of letters, digits, underscores and points. -/
theorem lexed_of_tokenizeFile {file text : String} {ts : TokenList}
    (accepted : tokenizeFile .idl file text = .ok ts) : Lexed ts.tokens := by
  have stands : ∀ t ∈ ts.tokens, Language.definitions.Stands t.kind t.text.toList :=
    Language.stands_of_tokenizeFile accepted
  have words : ∀ a ∈ Language.definitions.alternatives, a.kind = .token .word →
      a.pattern = .dottedName := by
    simp [Language.alternatives, Language.layout]
  have refuses : Pattern.dottedName.Refuses (· ∈ ['<', '>', ',']) := by decide
  intro t member word c inside
  obtain ⟨a, listed, reads⟩ := List.exists_of_findSome?_eq_some (stands t member).2
  obtain ⟨left, found, same⟩ := Option.map_eq_some_iff.mp reads
  obtain ⟨kind, rfl⟩ := Prod.mk.inj same
  rw [words a listed (word ▸ kind), ← List.append_nil t.text.toList] at found
  simpa using Pattern.not_bad_of_first? refuses found c inside

namespace LoadM.Parallel

variable {X I : Ty → Prop} {w : Twin}

/-- What is read from a file does not depend on the sets. -/
theorem readSource (files : FileTree) (source : SourceRef) (alike : w.Alike X I) :
    Parallel X I (LoadM.readSource files source) (LoadM.readSource files source)
      (fun text text' _ => text = text') w := by
  have refuse {α : Type} {w : Twin} {Q : α → α → Twin → Prop} (e : SourceError)
      (alike : w.Alike X I) : Parallel X I (throw e : LoadM α) (throw e) Q w := .refuse alike
  cases source with
  | nowhere => exact refuse _ alike
  | file path | url address =>
      refine .tell_bind ?_
      split
      · exact .pure alike rfl
      · exact refuse _ alike

end LoadM.Parallel

namespace Load

variable {X I : Ty → Prop} {w : Twin} {load load' : Loader} {m m' : Model}
variable {name lexFile file text : String} {origin : SourceRef} {τ : LoadState}

theorem parseInto_parallel (loaders : load.Parallel X I load') (drafts : w.Drafts X I m m') :
    Parallel X I (parseInto load m lexFile file text origin)
      (parseInto load' m' lexFile file text origin)
      (fun m₁ m₁' w' => w'.Drafts X I m₁ m₁') w :=
  .lift_bind drafts.alike fun _ cut => document_parallel loaders drafts (lexed_of_tokenizeFile cut)

variable {s : ModelSet} {log : List LoadEvent}

theorem exec_parseWith_of_known {e : ModelError} (known : s.create name = .error e) :
    (parseWith load name text origin).exec ⟨s, log⟩ =
      (.error (.model origin.render ⟨0, 0⟩ e), ⟨s, log⟩) := by
  have seen : getSet.exec ⟨s, log⟩ = (.ok s, ⟨s, log⟩) := rfl
  rw [parseWith, exec_bind_ok seen, known]
  rfl

/-- A new model is built while its name is pending, and then it is finished or abandoned. -/
theorem exec_parseWith (unknown : ¬ s.Knows name) :
    (parseWith load name text origin).exec ⟨s, log⟩ =
      (tryCatch
        (do
          let m ← parseInto load { name := some name } (origin.label name) (origin.label name) text
            origin
          LoadM.updateSet fun s => ((), s.finish m)
          LoadM.tell (.loadedModel name (origin.label name))
          return m)
        (fun e => do
          LoadM.updateSet fun s => ((), s.abandon name)
          throw e) : LoadM Model).exec ⟨s.reserve name, log⟩ := by
  have seen : getSet.exec ⟨s, log⟩ = (.ok s, ⟨s, log⟩) := rfl
  rw [parseWith, exec_bind_ok seen, ModelSet.create_eq_ok_iff.mpr ⟨unknown, rfl, rfl⟩]
  rfl

theorem exec_parseWith_ok (unknown : ¬ s.Knows name)
    (run : (parseInto load { name := some name } (origin.label name) (origin.label name) text
      origin).exec ⟨s.reserve name, log⟩ = (.ok m, τ)) :
    (parseWith load name text origin).exec ⟨s, log⟩ =
      (.ok m, ⟨τ.set.finish m, τ.log ++ [.loadedModel name (origin.label name)]⟩) := by
  rw [exec_parseWith unknown, exec_tryCatch, exec_bind_ok run]
  rfl

theorem exec_parseWith_error {e : SourceError} (unknown : ¬ s.Knows name)
    (run : (parseInto load { name := some name } (origin.label name) (origin.label name) text
      origin).exec ⟨s.reserve name, log⟩ = (.error e, τ)) :
    (parseWith load name text origin).exec ⟨s, log⟩ =
      (.error e, ⟨τ.set.abandon name, τ.log⟩) := by
  rw [exec_parseWith unknown, exec_tryCatch, exec_bind, run]
  rfl

theorem create_agree (alike : w.Alike X I) (known : w.left.Knows name) :
    ∃ e, w.left.create name = .error e ∧ w.right.create name = .error e := by
  unfold ModelSet.create
  rw [alike.isLoaded, alike.isPending]
  rcases known with loaded | pending
  · exact ⟨_, if_pos loaded, if_pos loaded⟩
  · by_cases loaded : w.left.isLoaded name = true
    · exact ⟨_, if_pos loaded, if_pos loaded⟩
    · rw [if_neg loaded, if_neg loaded, if_pos pending, if_pos pending]
      exact ⟨_, rfl, rfl⟩

/-- A text is parsed as the same named model on both sides. -/
theorem parseWith_parallel (steady : load.Steady) (steady' : load'.Steady)
    (loaders : load.Parallel X I load') (setting : Twin.Setting X I (some name))
    (alike : w.Alike X I) :
    Parallel X I (parseWith load name text origin) (parseWith load' name text origin)
      (fun m m' w' => m.Like w'.stamps m') w := by
  obtain ⟨R, _, _⟩ := w
  rintro ⟨s, log⟩ ⟨s', log'⟩ rfl rfl
  by_cases known : s.Knows name
  · obtain ⟨e, created, created'⟩ := create_agree alike known
    rw [exec_parseWith_of_known created, exec_parseWith_of_known created']
    exact .error _ (.refl _) alike
  · have unknown' : ¬ s'.Knows name := known ∘ alike.knows_iff.mp
    have leaves : Leaves (some name) (parseWith load name text origin) ⟨s, log⟩ :=
      parseWith_leaves steady alike.wf
    have leaves' : Leaves (some name) (parseWith load' name text origin) ⟨s', log'⟩ :=
      parseWith_leaves steady' alike.wf'
    have drafts : Twin.Drafts X I ⟨R, s.reserve name, s'.reserve name⟩ { name := some name }
        { name := some name } :=
      ⟨alike.reserve known, setting, (building_reserve alike.wf known).pending, .nil _⟩
    -- The two runs of the text itself, in the sets where the name is pending.
    have ends : Ends X I _ _
        ((parseInto load { name := some name } (origin.label name) (origin.label name) text
          origin).exec ⟨s.reserve name, log⟩)
        ((parseInto load' { name := some name } (origin.label name) (origin.label name) text
          origin).exec ⟨s'.reserve name, log'⟩) :=
      parseInto_parallel loaders drafts _ _ rfl rfl
    generalize run : LoadM.exec _ ⟨s.reserve name, log⟩ = out at ends
    generalize run' : LoadM.exec _ ⟨s'.reserve name, log'⟩ = out' at ends
    cases ends with
    | ok onward _ drafts =>
        have finished := exec_parseWith_ok known run
        have finished' := exec_parseWith_ok unknown' run'
        have progress := leaves.ok finished
        have progress' := leaves'.ok finished'
        rw [finished, finished']
        exact .ok (.of_setback onward.wider progress.setback progress'.setback)
          (drafts.alike.finish drafts.like progress.wellFormed progress'.wellFormed) drafts.like
    | error e onward alike =>
        have failed := exec_parseWith_error known run
        have failed' := exec_parseWith_error unknown' run'
        rw [failed, failed']
        refine .error e (.of_setback onward.wider (leaves.error failed).1 (leaves'.error failed').1)
          (alike.abandon ?_)
        rw [ModelSet.isPending, onward.pending]
        simp
    | leak leaks =>
        rw [exec_parseWith_error known run]
        exact .leak leaks

variable {files : FileTree} {source : SourceRef}

theorem loadWith_parallel (steady : load.Steady) (steady' : load'.Steady)
    (loaders : load.Parallel X I load') (settings : ∀ n, Twin.Setting X I (some n))
    (alike : w.Alike X I) :
    Parallel X I (loadWith load files source) (loadWith load' files source)
      (fun m m' w' => m.Like w'.stamps m') w := by
  unfold loadWith
  split
  · exact .refuse alike
  · refine .bind (.readSource files source alike) fun text text' w' _ alike same => ?_
    subst same
    exact parseWith_parallel steady steady' loaders (settings _) alike

/-- Included files are loaded alike, however deep they may nest. -/
theorem loadInclude_parallel (settings : ∀ n, Twin.Setting X I (some n)) (depth : Nat) :
    (loadInclude files depth).Parallel X I (loadInclude files depth) := by
  induction depth with
  | zero =>
      intro source w alike
      exact .bind (.readSource files source alike) fun _ _ _ _ alike _ => .refuse alike
  | succ depth ih =>
      intro source w alike
      have steady : (loadInclude files depth).Steady := loadInclude_steady depth
      refine .bind (loadWith_parallel steady steady ih settings alike) ?_
      exact fun _ _ _ _ alike _ => .pure alike trivial

theorem exec_parseAnonymousWith {σ : LoadState} (steady : load.Steady) (wf : σ.set.WellFormed) :
    (parseAnonymousWith load text origin).exec σ =
      (parseInto load { name := none } origin.render (origin.label "<anonymous>") text
        origin).exec σ := by
  have building : Model.Building { name := none } σ.set := building_nil wf (by simp)
  have declares := @parseInto_declares _ _ σ origin.render (origin.label "<anonymous>") text origin
    steady building
  rw [parseAnonymousWith, exec_bind]
  generalize run : LoadM.exec _ σ = out
  obtain ⟨out, τ⟩ := out
  cases out with
  | error e => rfl
  | ok m =>
      obtain ⟨_, _, name⟩ := declares.ok run
      have kept : (updateSet fun s => ((), s.finish m)).exec τ = (.ok (), τ) := by
        change (Except.ok (), { τ with set := τ.set.finish m }) = (.ok (), τ)
        rw [ModelSet.finish_anonymous name]
      exact exec_bind_ok kept

theorem parseAnonymousWith_parallel (steady : load.Steady) (steady' : load'.Steady)
    (loaders : load.Parallel X I load') (setting : Twin.Setting X I none) (alike : w.Alike X I) :
    Parallel X I (parseAnonymousWith load text origin) (parseAnonymousWith load' text origin)
      (fun m m' w' => m.Like w'.stamps m') w := by
  have drafts : w.Drafts X I { name := none } { name := none } := ⟨alike, setting, by simp, .nil _⟩
  intro σ σ' left right
  rw [exec_parseAnonymousWith steady (left ▸ alike.wf),
    exec_parseAnonymousWith steady' (right ▸ alike.wf')]
  exact (parseInto_parallel loaders drafts σ σ' left right).mono (.refl w)
    fun _ _ _ _ _ drafts => drafts.like

end Load

end IdlGen
