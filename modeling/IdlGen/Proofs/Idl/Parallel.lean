import IdlGen.Proofs.Idl.Wp
import IdlGen.Proofs.Model.Twins

/-!
# Two runs side by side

Two computations that load are run in the two sets of a twin. `Parallel` says that they end alike:
both with results that are related, or both with the same error, and in sets that are alike again.
There is one exception. The left run may stop at a name that it does not know, where the right run
finds one of the extra types; after such a leak nothing is said about the right run.

The rules of `Parallel` follow the way in which computations are put together, as those of `WP` do.
-/

namespace IdlGen

/-- The error is about the name of an extra type, which the left side does not know. -/
def Twin.Leak (X : Ty → Prop) (e : SourceError) : Prop :=
  ∃ t file pos, X t ∧ t.elements = [] ∧
    (e = .parse file pos (.unknownType t.qname) ∨
      ∃ keyword, e = .parse file pos (.selfReference keyword t.qname))

namespace LoadM

variable {α β γ δ : Type}

/-- How two runs that start in the sets of `w` can end. -/
inductive Ends (X I : Ty → Prop) (w : Twin) (Q : α → β → Twin → Prop) :
    Except SourceError α × LoadState → Except SourceError β × LoadState → Prop
  | ok {R : Pairing} {a : α} {b : β} {τ τ' : LoadState}
      (onward : w.Onward ⟨R, τ.set, τ'.set⟩) (alike : Twin.Alike X I ⟨R, τ.set, τ'.set⟩)
      (related : Q a b ⟨R, τ.set, τ'.set⟩) : Ends X I w Q (.ok a, τ) (.ok b, τ')
  | error {R : Pairing} (e : SourceError) {τ τ' : LoadState}
      (onward : w.Onward ⟨R, τ.set, τ'.set⟩) (alike : Twin.Alike X I ⟨R, τ.set, τ'.set⟩) :
      Ends X I w Q (.error e, τ) (.error e, τ')
  | leak {e : SourceError} {τ : LoadState} {out : Except SourceError β × LoadState}
      (leaks : Twin.Leak X e) : Ends X I w Q (.error e, τ) out

/-- Both computations, each run in its set of `w`, end alike, with results in `Q`. -/
def Parallel (X I : Ty → Prop) (x : LoadM α) (y : LoadM β) (Q : α → β → Twin → Prop) (w : Twin) :
    Prop :=
  ∀ σ σ' : LoadState, σ.set = w.left → σ'.set = w.right → Ends X I w Q (x.exec σ) (y.exec σ')

variable {X I : Ty → Prop} {w w' : Twin} {x : LoadM α} {y : LoadM β}
variable {Q Q' : α → β → Twin → Prop}

theorem Ends.mono {out : Except SourceError α × LoadState} {out' : Except SourceError β × LoadState}
    (ends : Ends X I w' Q out out') (onward : w.Onward w')
    (imp : ∀ a b w'', w'.Onward w'' → w''.Alike X I → Q a b w'' → Q' a b w'') :
    Ends X I w Q' out out' := by
  cases ends with
  | ok further alike related =>
      exact .ok (onward.trans further) alike (imp _ _ _ further alike related)
  | error e further alike => exact .error e (onward.trans further) alike
  | leak leaks => exact .leak leaks

namespace Parallel

variable {f : α → LoadM γ} {g : β → LoadM δ} {P : γ → δ → Twin → Prop}

theorem mono (runs : Parallel X I x y Q w)
    (imp : ∀ a b w', w.Onward w' → w'.Alike X I → Q a b w' → Q' a b w') : Parallel X I x y Q' w :=
  fun σ σ' left right => (runs σ σ' left right).mono (.refl w) imp

/-- Runs that start where earlier ones have ended also end alike seen from before those. -/
theorem after (onward : w.Onward w') (runs : Parallel X I x y Q w') {σ σ' : LoadState}
    (left : σ.set = w'.left) (right : σ'.set = w'.right) :
    Ends X I w Q (x.exec σ) (y.exec σ') :=
  (runs σ σ' left right).mono onward fun _ _ _ _ _ => id

theorem pure {a : α} {b : β} (alike : w.Alike X I) (related : Q a b w) :
    Parallel X I (Pure.pure a : LoadM α) (Pure.pure b : LoadM β) Q w := by
  obtain ⟨R, s, s'⟩ := w
  rintro ⟨_, _⟩ ⟨_, _⟩ rfl rfl
  exact .ok (.refl _) alike related

theorem bind (first : Parallel X I x y Q w)
    (second : ∀ a b w', w.Onward w' → w'.Alike X I → Q a b w' → Parallel X I (f a) (g b) P w') :
    Parallel X I (x >>= f) (y >>= g) P w := by
  intro σ σ' left right
  have ends := first σ σ' left right
  rw [exec_bind, exec_bind]
  generalize x.exec σ = out at ends
  generalize y.exec σ' = out' at ends
  cases ends with
  | ok onward alike related => exact after onward (second _ _ _ onward alike related) rfl rfl
  | error e onward alike => exact .error e onward alike
  | leak leaks => exact .leak leaks

/-- Steps that do not touch the sets. -/
theorem lift_bind_like {S : α → β → Prop} {u : Except SourceError α} {v : Except SourceError β}
    (alike : w.Alike X I) (agree : Agree S u v)
    (next : ∀ a b, S a b → Parallel X I (f a) (g b) P w) :
    Parallel X I (liftM u >>= f) (liftM v >>= g) P w := by
  cases agree with
  | ok related => exact next _ _ related
  | error e =>
      obtain ⟨R, s, s'⟩ := w
      rintro ⟨_, _⟩ ⟨_, _⟩ rfl rfl
      exact .error e (.refl _) alike

/-- One step that does not touch the sets, made on both sides. -/
theorem lift_bind {u : Except SourceError α} {g : α → LoadM δ} (alike : w.Alike X I)
    (next : ∀ a, u = .ok a → Parallel X I (f a) (g a) P w) :
    Parallel X I (liftM u >>= f) (liftM u >>= g) P w :=
  lift_bind_like alike (.self u) fun a _ same => same.1 ▸ next a same.2

theorem lift {u : Except SourceError α} {v : Except SourceError β} (alike : w.Alike X I)
    (agree : Agree (fun a b => Q a b w) u v) :
    Parallel X I (liftM u : LoadM α) (liftM v : LoadM β) Q w := by
  obtain ⟨R, s, s'⟩ := w
  rintro ⟨_, _⟩ ⟨_, _⟩ rfl rfl
  cases agree with
  | ok related => exact .ok (.refl _) alike related
  | error e => exact .error e (.refl _) alike

theorem refuse {e : SourceError} (alike : w.Alike X I) :
    Parallel X I (liftM (.error e : Except SourceError α) : LoadM α)
      (liftM (.error e : Except SourceError β) : LoadM β) Q w :=
  lift alike (.error e)

theorem refuse_bind {e : SourceError} (alike : w.Alike X I) :
    Parallel X I (liftM (.error e : Except SourceError α) >>= f)
      (liftM (.error e : Except SourceError β) >>= g) P w :=
  lift_bind_like (S := fun _ _ => False) alike (.error e) fun _ _ => False.elim

/-- The left run may stop at a leak, whatever the right run does. -/
theorem leak {e : SourceError} {y : LoadM δ} (leaks : Twin.Leak X e) :
    Parallel X I (liftM (.error e : Except SourceError α) >>= f) y P w :=
  fun _ _ _ _ => .leak leaks

theorem getSet_bind {f : ModelSet → LoadM γ} {g : ModelSet → LoadM δ}
    (next : Parallel X I (f w.left) (g w.right) P w) :
    Parallel X I (getSet >>= f) (getSet >>= g) P w := by
  obtain ⟨R, s, s'⟩ := w
  rintro ⟨_, _⟩ ⟨_, _⟩ rfl rfl
  exact next _ _ rfl rfl

theorem updateSet_bind {R : Pairing} {h : ModelSet → α × ModelSet} {k : ModelSet → β × ModelSet}
    (onward : w.Onward ⟨R, (h w.left).2, (k w.right).2⟩)
    (next : Parallel X I (f (h w.left).1) (g (k w.right).1) P ⟨R, (h w.left).2, (k w.right).2⟩) :
    Parallel X I (updateSet h >>= f) (updateSet k >>= g) P w := by
  obtain ⟨_, s, s'⟩ := w
  rintro ⟨_, _⟩ ⟨_, _⟩ rfl rfl
  exact after onward next rfl rfl

theorem setSet_bind {R : Pairing} {s s' : ModelSet} {f : Unit → LoadM γ} {g : Unit → LoadM δ}
    (onward : w.Onward ⟨R, s, s'⟩) (next : Parallel X I (f ()) (g ()) P ⟨R, s, s'⟩) :
    Parallel X I (setSet s >>= f) (setSet s' >>= g) P w :=
  fun _ _ _ _ => after onward next rfl rfl

theorem tell_bind {event : LoadEvent} {f : Unit → LoadM γ} {g : Unit → LoadM δ}
    (next : Parallel X I (f ()) (g ()) P w) :
    Parallel X I (tell event >>= f) (tell event >>= g) P w :=
  fun _ _ left right => next _ _ left right

end Parallel

end LoadM

end IdlGen
