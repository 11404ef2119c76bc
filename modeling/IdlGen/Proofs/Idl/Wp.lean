import IdlGen.Idl.LoadM
import IdlGen.Proofs.Files.Reading
import IdlGen.Proofs.Model.Growth

/-!
# Weakest preconditions of loading

A computation that loads ends with a result or with an error, and with a state in either case. `WP`
has one postcondition for each of the two ends. Its rules follow the way in which computations are
put together, so that a rule of the grammar is verified in the order in which it is written.

`Declares` is the contract that all rules of the grammar share: they make progress, and where they
fail, they leave no more than a setback behind.
-/

namespace IdlGen.LoadM

/-- Runs a computation from a state. -/
def exec {α : Type} (x : LoadM α) (σ : LoadState) : Except SourceError α × LoadState :=
  x.run.run σ

/-- From `σ` the computation ends with a result and a state in `Q`, or with an error and a state in
`E`. -/
def WP {α : Type} (x : LoadM α) (Q : α → LoadState → Prop) (E : SourceError → LoadState → Prop)
    (σ : LoadState) : Prop :=
  match x.exec σ with
  | (.ok a, τ) => Q a τ
  | (.error e, τ) => E e τ

variable {α β : Type} {x : LoadM α} {f : α → LoadM β} {σ : LoadState}
variable {Q Q' : α → LoadState → Prop} {E E' : SourceError → LoadState → Prop}

@[simp] theorem exec_bind : (x >>= f).exec σ =
    match x.exec σ with
    | (.ok a, τ) => (f a).exec τ
    | (.error e, τ) => (.error e, τ) := by
  simp only [exec, ExceptT.run_bind, StateT.run_bind]
  rcases x.run.run σ with ⟨_ | _, _⟩ <;> rfl

theorem exec_bind_ok {a : α} {τ : LoadState} (h : x.exec σ = (.ok a, τ)) :
    (x >>= f).exec σ = (f a).exec τ := by
  rw [exec_bind, h]

theorem exec_lift_bind {y : Except SourceError α} {a : α} (h : y = .ok a) :
    ((liftM y : LoadM α) >>= f).exec σ = (f a).exec σ := by
  subst h
  rfl

theorem exec_lift_bind_error {y : Except SourceError α} {e : SourceError} (h : y = .error e) :
    ((liftM y : LoadM α) >>= f).exec σ = (.error e, σ) := by
  subst h
  rfl

@[simp] theorem exec_tryCatch {handle : SourceError → LoadM α} : (tryCatch x handle).exec σ =
    match x.exec σ with
    | (.ok a, τ) => (.ok a, τ)
    | (.error e, τ) => (handle e).exec τ := by
  simp only [exec, ExceptT.run_tryCatch, StateT.run_bind]
  rcases x.run.run σ with ⟨_ | _, _⟩ <;> rfl

namespace WP

theorem ok {a : α} {τ : LoadState} (h : x.WP Q E σ) (run : x.exec σ = (.ok a, τ)) : Q a τ := by
  rwa [WP, run] at h

theorem error {e : SourceError} {τ : LoadState} (h : x.WP Q E σ)
    (run : x.exec σ = (.error e, τ)) : E e τ := by
  rwa [WP, run] at h

/-- Nothing more can be said of a computation than how it ends. -/
theorem of_exec :
    x.WP (fun a τ => x.exec σ = (.ok a, τ)) (fun e τ => x.exec σ = (.error e, τ)) σ := by
  unfold WP
  split <;> assumption

theorem mono (h : x.WP Q E σ) (result : ∀ a τ, Q a τ → Q' a τ) (failure : ∀ e τ, E e τ → E' e τ) :
    x.WP Q' E' σ := by
  unfold WP at h ⊢
  split at h
  · exact result _ _ h
  · exact failure _ _ h

theorem and (h : x.WP Q E σ) (h' : x.WP Q' E' σ) :
    x.WP (fun a τ => Q a τ ∧ Q' a τ) (fun e τ => E e τ ∧ E' e τ) σ := by
  unfold WP at h h' ⊢
  split at h
  · rename_i out
    rw [out] at h'
    exact ⟨h, h'⟩
  · rename_i out
    rw [out] at h'
    exact ⟨h, h'⟩

/-- What holds at both ends holds at the end. -/
theorem both {P : LoadState → Prop} (h : x.WP (fun _ => P) (fun _ => P) σ) : P (x.exec σ).2 := by
  unfold WP at h
  split at h
  · rename_i out
    rwa [out]
  · rename_i out
    rwa [out]

@[simp] theorem pure_iff {a : α} : (pure a : LoadM α).WP Q E σ ↔ Q a σ := Iff.rfl

@[simp] theorem throw_iff {e : SourceError} : (throw e : LoadM α).WP Q E σ ↔ E e σ := Iff.rfl

@[simp] theorem lift_iff {y : Except SourceError α} :
    (liftM y : LoadM α).WP Q E σ ↔ (∀ a, y = .ok a → Q a σ) ∧ ∀ e, y = .error e → E e σ := by
  cases y with
  | ok a => exact ⟨fun h => ⟨fun _ same => Except.ok.inj same ▸ h, nofun⟩, fun h => h.1 a rfl⟩
  | error e => exact ⟨fun h => ⟨nofun, fun _ same => Except.error.inj same ▸ h⟩, fun h => h.2 e rfl⟩

@[simp] theorem bind_iff {Q : β → LoadState → Prop} :
    (x >>= f).WP Q E σ ↔ x.WP (fun a τ => (f a).WP Q E τ) E σ := by
  simp only [WP, exec_bind]
  rcases x.exec σ with ⟨_ | _, _⟩ <;> rfl

@[simp] theorem tryCatch_iff {handle : SourceError → LoadM α} :
    (tryCatch x handle).WP Q E σ ↔ x.WP Q (fun e τ => (handle e).WP Q E τ) σ := by
  simp only [WP, exec_tryCatch]
  rcases x.exec σ with ⟨_ | _, _⟩ <;> rfl

@[simp] theorem getSet_iff {Q : ModelSet → LoadState → Prop} :
    getSet.WP Q E σ ↔ Q σ.set σ := Iff.rfl

@[simp] theorem setSet_iff {s : ModelSet} {Q : Unit → LoadState → Prop} :
    (setSet s).WP Q E σ ↔ Q () { σ with set := s } := Iff.rfl

@[simp] theorem updateSet_iff {g : ModelSet → α × ModelSet} :
    (updateSet g).WP Q E σ ↔ Q (g σ.set).1 { σ with set := (g σ.set).2 } := Iff.rfl

@[simp] theorem tell_iff {event : LoadEvent} {Q : Unit → LoadState → Prop} :
    (tell event).WP Q E σ ↔ Q () { σ with log := σ.log ++ [event] } := Iff.rfl

end WP

/-- What reading a source tells. -/
def announces : SourceRef → List LoadEvent
  | .nowhere => []
  | .file path => [.reading path]
  | .url address => [.fetching address]

/-- Reading a source tells of it, and gives the text that is behind it. -/
theorem exec_readSource (files : FileTree) (source : SourceRef) (σ : LoadState) :
    ∃ out, (readSource files source).exec σ =
        (out, { σ with log := σ.log ++ announces source }) ∧
      out.toOption = files.text? source := by
  cases source with
  | nowhere =>
      refine ⟨.error (.unreadable "" (.unspecified "file")), ?_, rfl⟩
      rw [announces, List.append_nil]
      rfl
  | file path =>
      have told : (tell (.reading path)).exec σ =
          (.ok (), { σ with log := σ.log ++ [.reading path] }) := rfl
      rw [readSource, exec_bind_ok told, FileTree.text?]
      cases files.read path with
      | error e => exact ⟨.error (.unreadable path e), rfl, rfl⟩
      | ok text => exact ⟨.ok text, rfl, rfl⟩
  | url address =>
      have told : (tell (.fetching address)).exec σ =
          (.ok (), { σ with log := σ.log ++ [.fetching address] }) := rfl
      rw [readSource, exec_bind_ok told, FileTree.text?]
      cases files.fetch? address with
      | none => exact ⟨.error (.fetch address), rfl, rfl⟩
      | some text => exact ⟨.ok text, rfl, rfl⟩

theorem exec_readSource_ok {files : FileTree} {source : SourceRef} {text : String}
    (content : files.text? source = some text) : (readSource files source).exec σ =
      (.ok text, { σ with log := σ.log ++ announces source }) := by
  obtain ⟨out, read, behind⟩ := exec_readSource files source σ
  rw [read, eq_ok_of_toOption (behind.trans content)]

/-- Reading a source changes the log only. -/
theorem readSource_wp {files : FileTree} {source : SourceRef} {Q : String → LoadState → Prop}
    (result : ∀ text τ, τ.set = σ.set → Q text τ) (failure : ∀ e τ, τ.set = σ.set → E e τ) :
    (readSource files source).WP Q E σ := by
  obtain ⟨out, read, _⟩ := exec_readSource files source σ
  unfold WP
  rw [read]
  cases out with
  | ok text => exact result _ _ rfl
  | error e => exact failure _ _ rfl

/-- The computation makes progress, and it declares only types of `D` itself. -/
def Declares (D : Ty → Prop) (x : LoadM α) (Q : α → ModelSet → Prop) (σ : LoadState) : Prop :=
  x.WP (fun a τ => σ.set.Progress D τ.set ∧ Q a τ.set) (fun _ τ => σ.set.Setback D τ.set) σ

namespace Declares

variable {D : Ty → Prop} {P : α → ModelSet → Prop} {R : β → ModelSet → Prop}

theorem pure {a : α} (wf : σ.set.WellFormed) (post : P a σ.set) :
    Declares D (Pure.pure a : LoadM α) P σ :=
  ⟨.refl wf, post⟩

theorem lift {y : Except SourceError α} (wf : σ.set.WellFormed)
    (post : ∀ a, y = .ok a → P a σ.set) : Declares D (liftM y : LoadM α) P σ :=
  WP.lift_iff.mpr ⟨fun a h => ⟨.refl wf, post a h⟩, fun _ _ => (ModelSet.Progress.refl wf).setback⟩

/-- A rule may refuse its input. -/
theorem refuse {e : SourceError} (wf : σ.set.WellFormed) :
    Declares D (liftM (.error e : Except SourceError α) : LoadM α) P σ :=
  (ModelSet.Progress.refl wf).setback

theorem refuse_bind {e : SourceError} (wf : σ.set.WellFormed) :
    Declares D (liftM (.error e : Except SourceError α) >>= f) R σ :=
  (ModelSet.Progress.refl wf).setback

/-- A contract that starts where progress was made to also holds from before that. -/
theorem after {τ : LoadState} (progress : σ.set.Progress D τ.set) (next : Declares D x P τ) :
    x.WP (fun a υ => σ.set.Progress D υ.set ∧ P a υ.set) (fun _ υ => σ.set.Setback D υ.set) τ :=
  WP.mono next (fun _ _ ⟨further, post⟩ => ⟨progress.trans further, post⟩)
    fun _ _ => progress.trans_setback

theorem bind (first : Declares D x P σ)
    (second : ∀ a τ, σ.set.Progress D τ.set → P a τ.set → Declares D (f a) R τ) :
    Declares D (x >>= f) R σ :=
  WP.bind_iff.mpr (WP.mono first
    (fun a τ ⟨progress, post⟩ => after progress (second a τ progress post)) fun _ _ h => h)

/-- A step that does not touch the state. -/
theorem lift_bind {y : Except SourceError α} (wf : σ.set.WellFormed)
    (next : ∀ a, y = .ok a → Declares D (f a) R σ) : Declares D (liftM y >>= f) R σ := by
  refine WP.bind_iff.mpr (WP.lift_iff.mpr ⟨next, fun _ _ => ?_⟩)
  exact (ModelSet.Progress.refl wf).setback

theorem getSet_bind {g : ModelSet → LoadM β} (next : Declares D (g σ.set) R σ) :
    Declares D (getSet >>= g) R σ :=
  next

theorem updateSet_bind {g : ModelSet → α × ModelSet}
    (progress : σ.set.Progress D (g σ.set).2)
    (next : Declares D (f (g σ.set).1) R { σ with set := (g σ.set).2 }) :
    Declares D (updateSet g >>= f) R σ :=
  WP.bind_iff.mpr (WP.updateSet_iff.mpr (after progress next))

theorem setSet_bind {s : ModelSet} {g : Unit → LoadM β} (progress : σ.set.Progress D s)
    (next : Declares D (g ()) R { σ with set := s }) : Declares D (setSet s >>= g) R σ :=
  WP.bind_iff.mpr (WP.setSet_iff.mpr (after progress next))

theorem tell_bind {event : LoadEvent} {g : Unit → LoadM β}
    (next : Declares D (g ()) R { σ with log := σ.log ++ [event] }) :
    Declares D (tell event >>= g) R σ :=
  WP.bind_iff.mpr (WP.tell_iff.mpr next)

theorem widen {D' : Ty → Prop} (h : Declares D x P σ) (imp : ∀ t, D t → D' t) :
    Declares D' x P σ :=
  WP.mono h (fun _ _ ⟨progress, post⟩ => ⟨progress.mono imp, post⟩)
    fun _ _ setback => setback.mono imp

theorem mono {P' : α → ModelSet → Prop} (h : Declares D x P σ)
    (post : ∀ a s, σ.set.Progress D s → P a s → P' a s) : Declares D x P' σ :=
  WP.mono h (fun a τ ⟨progress, ha⟩ => ⟨progress, post a τ.set progress ha⟩) fun _ _ h => h

theorem setback (h : Declares D x P σ) : σ.set.Setback D (x.exec σ).2.set :=
  (WP.mono h (fun _ _ ⟨progress, _⟩ => progress.setback) fun _ _ h => h).both
    (P := fun τ => σ.set.Setback D τ.set)

end Declares

end IdlGen.LoadM
