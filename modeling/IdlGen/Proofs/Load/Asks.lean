import IdlGen.Proofs.Load.Contract

/-!
# The moments at which a nested load starts

A computation that is given a loader asks it for a source in some state, if its outcome depends on
the answer to this question. The answer that is given elsewhere does not matter for that, so the
states in which a call asks are those at which a nested load starts.

Computations that are put together ask what their parts ask. A file asks only at its includes: what
was declared before is in the set by then, and what follows goes on from where the nested load
ended.
-/

namespace IdlGen.Idl

open LoadM

variable {α β : Type}

/-- From `σ`, the computation asks its loader for `source` in the state `τ`. -/
def Asks (x : Loader → LoadM α) (load : Loader) (σ : LoadState) (source : SourceRef)
    (τ : LoadState) : Prop :=
  ∃ other : Loader,
    (∀ source' τ', (source', τ') ≠ (source, τ) →
      (other source').exec τ' = (load source').exec τ') ∧
    (x other).exec σ ≠ (x load).exec σ

namespace Asks

variable {x : Loader → LoadM α} {f : α → Loader → LoadM β} {load : Loader} {σ τ : LoadState}
variable {source source' : SourceRef}

/-- What does not use its loader asks for nothing. -/
theorem not_const {y : LoadM α} : ¬ Asks (fun _ => y) load σ source τ :=
  fun ⟨_, _, different⟩ => different rfl

theorem question (h : Asks (fun l => l source') load σ source τ) : source' = source ∧ σ = τ := by
  obtain ⟨other, agrees, different⟩ := h
  refine Prod.mk.inj (Classical.byContradiction fun elsewhere => different ?_)
  exact agrees source' σ elsewhere

theorem bind (h : Asks (fun l => x l >>= fun a => f a l) load σ source τ) :
    Asks x load σ source τ ∨
      ∃ a υ, (x load).exec σ = (.ok a, υ) ∧ Asks (f a) load υ source τ := by
  obtain ⟨other, agrees, different⟩ := h
  by_cases same : (x other).exec σ = (x load).exec σ
  · simp only [exec_bind, same] at different
    rcases out : (x load).exec σ with ⟨e | a, υ⟩
    · simp [out] at different
    · rw [out] at different
      exact .inr ⟨a, υ, rfl, other, agrees, different⟩
  · exact .inl ⟨other, agrees, same⟩

theorem const_bind {y : LoadM α} (h : Asks (fun l => y >>= fun a => f a l) load σ source τ) :
    ∃ a υ, y.exec σ = (.ok a, υ) ∧ Asks (f a) load υ source τ :=
  (bind h).resolve_left not_const

theorem lift_bind {y : Except SourceError α}
    (h : Asks (fun l => liftM y >>= fun a => f a l) load σ source τ) :
    ∃ a, y = .ok a ∧ Asks (f a) load σ source τ := by
  obtain ⟨a, υ, out, h⟩ := const_bind h
  cases y with
  | error e => cases out
  | ok b =>
      cases out
      exact ⟨a, rfl, h⟩

/-- A handler that does not use the loader adds no question. -/
theorem tryCatch {handle : SourceError → LoadM α}
    (h : Asks (fun l => tryCatch (x l) handle) load σ source τ) : Asks x load σ source τ := by
  obtain ⟨other, agrees, different⟩ := h
  refine ⟨other, agrees, fun same => different ?_⟩
  simp only [exec_tryCatch, same]

end Asks

variable {r : Reader} {origin : SourceRef} {m : Model} {toks : List Token}
variable {load : Loader} {σ τ : LoadState} {source : SourceRef}

/-- An include asks in the set as it is, and ends where the nested load ends. -/
theorem includeDecl_asks (h : Asks (fun l => includeDecl r origin l m toks) load σ source τ) :
    τ.set = σ.set ∧ ((includeDecl r origin load m toks).exec σ).2 = ((load source).exec τ).2 := by
  unfold includeDecl at h ⊢
  obtain ⟨keyword, readKeyword, h⟩ := h.lift_bind
  obtain ⟨pathToken, readPath, h⟩ := h.lift_bind
  obtain ⟨path, decoded, h⟩ := h.lift_bind
  rw [exec_lift_bind readKeyword, exec_lift_bind readPath, exec_lift_bind decoded]
  dsimp only at h ⊢
  cases named : (origin.parent.child path).modelName? with
  | none =>
      simp only [named] at h
      exact absurd h Asks.not_const
  | some name =>
      simp only [named] at h ⊢
      obtain ⟨s, _, got, h⟩ := h.const_bind
      cases got
      by_cases pending : σ.set.isPending name = true
      · simp only [pending, ↓reduceIte] at h
        obtain ⟨_, impossible, _⟩ := h.lift_bind
        cases impossible
      · by_cases loaded : σ.set.isLoaded name = true
        · simp only [pending, loaded] at h
          exact absurd h Asks.not_const
        · simp only [pending, loaded] at h
          obtain ⟨_, υ, told, h⟩ := h.const_bind
          cases told
          rcases h.bind with asked | ⟨_, _, _, h⟩
          · obtain ⟨rfl, rfl⟩ := asked.question
            refine ⟨rfl, ?_⟩
            rw [exec_bind_ok (x := getSet) rfl]
            simp only [pending, loaded, Bool.not_false, Bool.false_eq_true, ↓reduceIte]
            rw [exec_bind_ok (x := tell _) rfl, exec_bind]
            split
            · rename_i out
              rw [out]
              rfl
            · rename_i out
              rw [out]
          · exact absurd h Asks.not_const

theorem declaration_asks (h : Asks (fun l => declaration r origin l m toks) load σ source τ) :
    τ.set = σ.set ∧ ((declaration r origin load m toks).exec σ).2 = ((load source).exec τ).2 := by
  unfold declaration at h ⊢
  dsimp only at h ⊢
  by_cases word : (r.current toks).kind ≠ .word
  · simp only [if_pos word] at h
    exact absurd h Asks.not_const
  · simp only [if_neg word] at h ⊢
    generalize (r.current toks).text = text at h ⊢
    by_cases isInclude : text = "include"
    · subst isInclude
      exact includeDecl_asks h
    · obtain ⟨_, _, different⟩ := h
      refine absurd ?_ different
      split
      · exact absurd rfl isInclude
      all_goals rfl

/-- A file asks after progress, and ends in a set that evolved from the end of the nested load. -/
theorem document_asks (steady : load.Steady) (building : m.Building σ.set)
    (h : Asks (fun l => document r origin l m toks) load σ source τ) :
    σ.set.Progress m.Own τ.set ∧
      ((load source).exec τ).2.set.Evolves ((document r origin load m toks).exec σ).2.set := by
  induction hn : toks.length using Nat.strongRecOn generalizing toks m σ with
  | ind length ih =>
      unfold document at h ⊢
      cases toks with
      | nil => exact absurd h Asks.not_const
      | cons t rest =>
          have contract : Declares m.Own (declaration r origin load m (t :: rest)) _ σ :=
            declaration_declares steady building
          dsimp only at h ⊢
          rcases h.bind with asked | ⟨⟨m', afterDeclaration, _⟩, υ, out, h⟩
          · obtain ⟨same, ended⟩ := declaration_asks asked
            refine ⟨by rw [same]; exact .refl building.wf, ?_⟩
            rw [exec_bind, ← ended]
            split
            · rename_i p υ out
              obtain ⟨_, building', _⟩ := contract.ok out
              rw [out]
              exact .of_setback (document_declares steady building').setback
            · rename_i out
              rw [out]
          · obtain ⟨made, building', name⟩ := contract.ok out
            rw [exec_bind_ok out]
            have shorter := (skipSeparator afterDeclaration).2
            obtain ⟨further, ended⟩ :=
              ih (skipSeparator afterDeclaration).1.length (by omega) building' h rfl
            have own : m'.Own = m.Own := funext fun t => congrArg (t.modelName? = ·) name
            exact ⟨made.trans (own ▸ further), ended⟩

/-- The failure of the nested load of `source` from `τ` is the failure of the computation. -/
def Interrupts (x : Loader → LoadM α) (σ : LoadState) (source : SourceRef) (τ : LoadState) : Prop :=
  ∀ load e, ((load source).exec τ).1 = .error e → ((x load).exec σ).1 = .error e

namespace Interrupts

variable {x : Loader → LoadM α} {f : α → Loader → LoadM β} {σ τ υ : LoadState} {source : SourceRef}

theorem question : Interrupts (fun l => l source) σ source σ := fun _ _ => id

theorem bind_left (h : Interrupts x σ source τ) :
    Interrupts (fun l => x l >>= fun a => f a l) σ source τ := by
  intro load e failed
  have failed := h load e failed
  rw [exec_bind]
  rcases out : (x load).exec σ with ⟨e' | a, υ⟩ <;> rw [out] at failed <;> cases failed
  rfl

theorem bind_right {y : LoadM α} {a : α} (out : y.exec σ = (.ok a, υ))
    (h : Interrupts (f a) υ source τ) :
    Interrupts (fun l => y >>= fun a => f a l) σ source τ := by
  intro load e failed
  rw [exec_bind_ok out]
  exact h load e failed

theorem lift_bind {y : Except SourceError α} {a : α} (out : y = .ok a)
    (h : Interrupts (f a) σ source τ) :
    Interrupts (fun l => liftM y >>= fun a => f a l) σ source τ :=
  bind_right (by rw [out]; rfl) h

theorem tryCatch {handle : SourceError → LoadM α} (h : Interrupts x σ source τ)
    (rethrows : ∀ e υ, ((handle e).exec υ).1 = .error e) :
    Interrupts (fun l => tryCatch (x l) handle) σ source τ := by
  intro load e failed
  have failed := h load e failed
  rw [exec_tryCatch]
  rcases out : (x load).exec σ with ⟨e' | a, υ⟩ <;> rw [out] at failed <;> cases failed
  exact rethrows e υ

/-- An interruption shows in the outcome, so the computation asks. -/
theorem asks (h : Interrupts x σ source τ) (load : Loader) : Asks x load σ source τ := by
  classical
  obtain ⟨e, fresh⟩ : ∃ e, ((x load).exec σ).1 ≠ .error e := by
    by_cases first : ((x load).exec σ).1 = .error (.fetch "")
    · exact ⟨.fetch ".", by simp [first]⟩
    · exact ⟨_, first⟩
  let other : Loader := fun source' τ' =>
    if (source', τ') = (source, τ) then (.error e, τ') else (load source').exec τ'
  have there : ((other source).exec τ).1 = .error e := by
    simp [other, exec, ExceptT.run, StateT.run]
  refine ⟨other, fun source' τ' elsewhere => ?_, fun same => fresh ?_⟩
  · exact if_neg elsewhere
  · rw [← same]
    exact h other e there

end Interrupts

/-- A file that begins with the include of an unknown model tells so and asks for its source, before
it goes on. -/
theorem exec_document_include (r : Reader) (m : Model) (rest : List Token) {origin : SourceRef}
    {σ : LoadState} {keyword path : Token} {file name : String}
    (isInclude : keyword.kind = .word ∧ keyword.text = "include") (isPath : path.kind = .string)
    (decoded : Spelling.decodeString path.text = .ok file)
    (named : (origin.parent.child file).modelName? = some name) (unknown : ¬ σ.set.Knows name) :
    ∃ next : Loader → LoadM Model, ∀ load,
      (document r origin load m (keyword :: path :: rest)).exec σ =
        (load (origin.parent.child file) >>= fun _ => next load).exec
          { σ with log := σ.log ++ [.includes r.file (origin.parent.child file)] } := by
  have readKeyword : dottedName r (keyword :: path :: rest) = .ok (.next keyword) := by
    simp [dottedName, Reader.take, isInclude]
  have readPath : r.take (·.kind = .string) .includePath (path :: rest) = .ok (.next path) := by
    simp [Reader.take, isPath]
  have readFile : r.spelled path (Spelling.decodeString path.text) = .ok file := by
    rw [decoded]
    rfl
  obtain ⟨unloaded, free⟩ : σ.set.isLoaded name = false ∧ σ.set.isPending name = false := by
    simpa [ModelSet.Knows] using unknown
  let p : Parsed (keyword :: path :: rest) Model :=
    Parsed.andThen (.next keyword) (Parsed.giving (.next path) (m.addInclude name))
  let told : LoadState := { σ with log := σ.log ++ [.includes r.file (origin.parent.child file)] }
  have declared (load : Loader) : (declaration r origin load m (keyword :: path :: rest)).exec σ =
      (load (origin.parent.child file) >>= fun _ => pure p).exec told := by
    unfold declaration
    simp only [Reader.current, List.headD_cons, isInclude, ne_eq, not_true_eq_false, ↓reduceIte]
    unfold includeDecl
    refine (exec_lift_bind readKeyword).trans ((exec_lift_bind readPath).trans
      ((exec_lift_bind readFile).trans ?_))
    simp only [named]
    rw [exec_bind_ok (x := getSet) rfl]
    simp only [unloaded, free, Bool.not_false, Bool.false_eq_true, ↓reduceIte]
    exact exec_bind_ok rfl
  refine ⟨fun load => document r origin load p.value (skipSeparator p.rest).1, fun load => ?_⟩
  rw [document, exec_bind, declared, exec_bind, exec_bind]
  cases (load (origin.parent.child file)).exec told with
  | mk out τ =>
      cases out with
      | error e => rfl
      | ok a => rfl

theorem document_interrupts {r : Reader} {origin : SourceRef} {m : Model} {σ : LoadState}
    {keyword path : Token} {rest : List Token} {file name : String}
    (isInclude : keyword.kind = .word ∧ keyword.text = "include") (isPath : path.kind = .string)
    (decoded : Spelling.decodeString path.text = .ok file)
    (named : (origin.parent.child file).modelName? = some name) (unknown : ¬ σ.set.Knows name) :
    Interrupts (fun l => document r origin l m (keyword :: path :: rest)) σ
      (origin.parent.child file)
      { σ with log := σ.log ++ [.includes r.file (origin.parent.child file)] } := by
  obtain ⟨next, asked⟩ := exec_document_include r m rest isInclude isPath decoded named unknown
  intro load e failed
  dsimp only
  rw [asked]
  exact Interrupts.bind_left (f := fun _ => next) .question load e failed

end IdlGen.Idl

namespace IdlGen.Load

open Idl LoadM

variable {load : Loader} {files : FileTree} {m : Model} {σ τ : LoadState}
variable {name lexFile file text : String} {origin source source' : SourceRef}

theorem parseInto_asks (steady : load.Steady) (building : m.Building σ.set)
    (h : Asks (fun l => parseInto l m lexFile file text origin) load σ source τ) :
    σ.set.Progress m.Own τ.set ∧
      ((load source).exec τ).2.set.Evolves
        ((parseInto load m lexFile file text origin).exec σ).2.set := by
  unfold parseInto at h ⊢
  obtain ⟨tokens, read, h⟩ := h.lift_bind
  rw [exec_lift_bind read]
  exact document_asks steady building h

/-- The nested load of `source` from `τ` lies between the states `σ` and `υ`. -/
structure Within (load : Loader) (source : SourceRef) (τ σ υ : LoadState) : Prop where
  wf : τ.set.WellFormed
  before : σ.set.Evolves τ.set
  after : ((load source).exec τ).2.set.Evolves υ.set

theorem parseAnonymousWith_asks (steady : load.Steady) (wf : σ.set.WellFormed)
    (h : Asks (fun l => parseAnonymousWith l text origin) load σ source τ) :
    Within load source τ σ ((parseAnonymousWith load text origin).exec σ).2 := by
  have building : Model.Building { name := none } σ.set := building_nil wf nofun
  unfold parseAnonymousWith at h ⊢
  rcases h.bind with asked | ⟨_, _, _, h⟩
  · obtain ⟨progress, ended⟩ := parseInto_asks steady building asked
    refine ⟨progress.wellFormed, .of_setback progress.setback, ?_⟩
    have nested := (steady source τ progress.wellFormed).setback.wellFormed
    rw [exec_bind]
    split
    · rename_i m υ out
      rw [out] at ended
      exact ended.trans nested (.finish υ.set m)
    · rename_i out
      rwa [out] at ended
  · exact absurd h Asks.not_const

theorem parseWith_asks (steady : load.Steady) (wf : σ.set.WellFormed)
    (h : Asks (fun l => parseWith l name text origin) load σ source τ) :
    Within load source τ σ ((parseWith load name text origin).exec σ).2 := by
  unfold parseWith at h ⊢
  obtain ⟨_, _, got, h⟩ := h.const_bind
  cases got
  rw [exec_bind_ok (x := getSet) rfl]
  cases created : σ.set.create name with
  | error e =>
      simp only [created] at h
      exact absurd h Asks.not_const
  | ok started =>
      obtain ⟨m, s⟩ := started
      simp only [created] at h ⊢
      obtain ⟨unknown, rfl, rfl⟩ := ModelSet.create_eq_ok_iff.mp created
      obtain ⟨_, _, done, h⟩ := h.const_bind
      cases done
      rw [exec_bind_ok (x := setSet _) rfl]
      have building : Model.Building { name := some name } (σ.set.reserve name) :=
        building_reserve wf unknown
      have contract : Declares _ (parseInto load { name := some name } (origin.label name)
          (origin.label name) text origin) _ ⟨σ.set.reserve name, σ.log⟩ :=
        parseInto_declares steady building
      rcases h.tryCatch.bind with asked | ⟨_, _, _, h⟩
      · obtain ⟨progress, ended⟩ := parseInto_asks steady building asked
        refine ⟨progress.wellFormed, .trans wf (.reserve _ name) (.of_setback progress.setback), ?_⟩
        have nested := (steady source τ progress.wellFormed).setback.wellFormed
        rw [exec_tryCatch, exec_bind]
        rcases out : (parseInto load { name := some name } (origin.label name) (origin.label name)
          text origin).exec ⟨σ.set.reserve name, σ.log⟩ with ⟨e | m, υ⟩
        · rw [out] at ended
          exact ended.trans nested (.abandon (contract.error out).wellFormed)
        · rw [out] at ended
          exact ended.trans nested (.finish υ.set m)
      · exact absurd h Asks.not_const

theorem loadWith_asks (steady : load.Steady) (wf : σ.set.WellFormed)
    (h : Asks (fun l => loadWith l files source') load σ source τ) :
    Within load source τ σ ((loadWith load files source').exec σ).2 := by
  unfold loadWith at h ⊢
  cases named : source'.modelName? with
  | none =>
      simp only [named] at h
      exact absurd h Asks.not_const
  | some name =>
      simp only [named] at h ⊢
      obtain ⟨text, υ, read, h⟩ := h.const_bind
      have same : υ.set = σ.set :=
        WP.ok (readSource_wp (Q := fun _ υ => υ.set = σ.set) (E := fun _ _ => True)
          (fun _ _ => id) fun _ _ _ => trivial) read
      rw [exec_bind_ok read]
      obtain ⟨wf', before, after⟩ := parseWith_asks steady (same ▸ wf) h
      exact ⟨wf', same ▸ before, after⟩

end IdlGen.Load
