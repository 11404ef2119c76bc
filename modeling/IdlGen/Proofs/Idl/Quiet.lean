import IdlGen.Proofs.Idl.Grammar
import IdlGen.Proofs.Model.Order

/-!
# What only includes do

Every rule of the grammar but one is quiet: it tells nothing, it leaves the models of the set alone,
and it keeps the includes of the model that is being read. So all reading of files, and every model
that is finished while another one is read, comes from an include.
-/

namespace IdlGen

theorem eq_error_or_eq_ok {ε α : Type} (x : Except ε α) : (∃ e, x = .error e) ∨ ∃ a, x = .ok a := by
  cases x with
  | error e => exact .inl ⟨e, rfl⟩
  | ok a => exact .inr ⟨a, rfl⟩

namespace LoadM

/-- Nothing was told, and no model was started, finished or abandoned. -/
structure Still (σ τ : LoadState) : Prop where
  log : τ.log = σ.log
  same : σ.set.SameModels τ.set

variable {α β : Type} {x : LoadM α} {f : α → LoadM β} {σ τ υ : LoadState}

@[refl, simp] theorem Still.refl (σ : LoadState) : Still σ σ := ⟨rfl, .refl _⟩

theorem Still.trans (h : Still σ τ) (h' : Still τ υ) : Still σ υ :=
  ⟨h'.log.trans h.log, h.same.trans h'.same⟩

/-- The computation is quiet, and its result is in `P`. -/
def Quiet (x : LoadM α) (P : α → Prop) (σ : LoadState) : Prop :=
  x.WP (fun a τ => Still σ τ ∧ P a) (fun _ τ => Still σ τ) σ

namespace Quiet

variable {P : α → Prop} {R : β → Prop}

theorem pure {a : α} (post : P a) : Quiet (Pure.pure a : LoadM α) P σ := ⟨.refl σ, post⟩

theorem lift {y : Except SourceError α} (post : ∀ a, y = .ok a → P a) :
    Quiet (liftM y : LoadM α) P σ :=
  WP.lift_iff.mpr ⟨fun a h => ⟨.refl σ, post a h⟩, fun _ _ => .refl σ⟩

theorem refuse {e : SourceError} : Quiet (liftM (.error e : Except SourceError α) : LoadM α) P σ :=
  .refl σ

theorem refuse_bind {e : SourceError} :
    Quiet (liftM (.error e : Except SourceError α) >>= f) R σ :=
  .refl σ

theorem after (still : Still σ τ) (next : Quiet x P τ) :
    x.WP (fun a υ => Still σ υ ∧ P a) (fun _ υ => Still σ υ) τ :=
  WP.mono next (fun _ _ ⟨further, post⟩ => ⟨still.trans further, post⟩) fun _ _ => still.trans

theorem bind (first : Quiet x P σ) (second : ∀ a τ, P a → Quiet (f a) R τ) :
    Quiet (x >>= f) R σ :=
  WP.bind_iff.mpr (WP.mono first
    (fun a τ ⟨still, post⟩ => after still (second a τ post)) fun _ _ h => h)

theorem lift_bind {y : Except SourceError α} (next : ∀ a, y = .ok a → Quiet (f a) R σ) :
    Quiet (liftM y >>= f) R σ :=
  WP.bind_iff.mpr (WP.lift_iff.mpr ⟨next, fun _ _ => .refl σ⟩)

theorem getSet_bind {g : ModelSet → LoadM β} (next : Quiet (g σ.set) R σ) :
    Quiet (getSet >>= g) R σ :=
  next

theorem updateSet_bind {g : ModelSet → α × ModelSet} (same : σ.set.SameModels (g σ.set).2)
    (next : Quiet (f (g σ.set).1) R { σ with set := (g σ.set).2 }) :
    Quiet (updateSet g >>= f) R σ :=
  WP.bind_iff.mpr (WP.updateSet_iff.mpr (after ⟨rfl, same⟩ next))

theorem setSet_bind {s : ModelSet} {g : Unit → LoadM β} (same : σ.set.SameModels s)
    (next : Quiet (g ()) R { σ with set := s }) : Quiet (setSet s >>= g) R σ :=
  WP.bind_iff.mpr (WP.setSet_iff.mpr (after ⟨rfl, same⟩ next))

end Quiet

end LoadM

open LoadM

namespace Idl

variable {r : Reader} {m : Model} {declaring : Declaring} {σ : LoadState} {toks : List Token}

theorem request_quiet {α : Type} {c : Container} {f : Ty → LoadM α} {P : α → Prop}
    (next : ∀ t τ, Quiet (f t) P τ) : Quiet (updateSet (fun s => c.request s) >>= f) P σ :=
  .updateSet_bind (.request c σ.set) (next _ _)

theorem typeExpr_quiet {allowVoid : Bool} :
    Quiet (typeExpr r m declaring allowVoid toks) (fun _ => True) σ := by
  induction h : toks.length using Nat.strongRecOn generalizing toks allowVoid σ with
  | ind length ih =>
      have elem : ∀ {inside : List Token} {τ : LoadState}, inside.length < length →
          Quiet (typeExpr r m declaring false inside) (fun _ => True) τ :=
        fun shorter => ih _ shorter rfl
      unfold typeExpr
      split
      · exact .refuse
      · simp only [List.length_cons] at h
        split
        · exact .refuse
        · split
          · split
            · exact .pure trivial
            · exact .refuse
          · exact .pure trivial
          · refine .lift_bind ?_
            rintro ⟨_, inside, _⟩ _
            refine .bind (elem (by omega)) ?_
            rintro ⟨e, _, _⟩ τ _
            refine .lift_bind ?_
            rintro ⟨_, _, _⟩ _
            exact request_quiet (c := .list e) fun _ _ => .pure trivial
          · refine .lift_bind ?_
            rintro ⟨_, inside, _⟩ _
            refine .bind (elem (by omega)) ?_
            rintro ⟨e, _, _⟩ τ _
            refine .lift_bind ?_
            rintro ⟨_, _, _⟩ _
            exact request_quiet (c := .set e) fun _ _ => .pure trivial
          · refine .lift_bind ?_
            rintro ⟨_, inside, _⟩ _
            refine .bind (elem (by omega)) ?_
            rintro ⟨k, _, _⟩ τ _
            refine .lift_bind ?_
            rintro ⟨_, afterComma, _⟩ _
            refine .bind (elem (by omega)) ?_
            rintro ⟨v, _, _⟩ υ _
            refine .lift_bind ?_
            rintro ⟨_, _, _⟩ _
            exact request_quiet (c := .map k v) fun _ _ => .pure trivial
          · exact .getSet_bind (.lift_bind fun _ _ => .pure trivial)

theorem field_quiet : Quiet (field r m declaring toks) (fun _ => True) σ := by
  unfold field
  refine .lift_bind ?_
  rintro ⟨idToken, afterId, _⟩ _
  refine .lift_bind fun id _ => .lift_bind ?_
  rintro ⟨_, afterColon, _⟩ _
  refine .bind typeExpr_quiet ?_
  rintro ⟨ty, afterType, _⟩ τ _
  refine .lift_bind ?_
  rintro ⟨name, afterName, _⟩ _
  refine .getSet_bind (.lift_bind ?_)
  rintro ⟨default, afterDefault, _⟩ _
  refine .lift_bind ?_
  rintro ⟨notes, rest, _⟩ _
  exact .lift_bind fun f _ => .pure trivial

theorem fieldsUntil_quiet {close : String} {acc : FieldSet Ty} :
    Quiet (fieldsUntil r m declaring close acc toks) (fun _ => True) σ := by
  induction h : toks.length using Nat.strongRecOn generalizing toks acc σ with
  | ind length ih =>
      unfold fieldsUntil
      split
      · exact .pure trivial
      · refine .bind field_quiet ?_
        rintro ⟨⟨idToken, f⟩, afterField, _⟩ τ _
        refine .lift_bind fun acc' _ => ?_
        obtain ⟨next, _⟩ := skipSeparator afterField
        refine .bind (ih next.length (by omega) rfl) ?_
        rintro ⟨acc'', rest, _⟩ υ _
        exact .pure trivial

theorem throwsClause_quiet {owner : String} :
    Quiet (throwsClause r m owner toks) (fun _ => True) σ := by
  unfold throwsClause
  split
  · exact .pure trivial
  · exact .lift_bind fun inside _ => .bind fieldsUntil_quiet fun fields τ _ => .pure trivial

theorem function_quiet {service : String} :
    Quiet (function r m service toks) (fun _ => True) σ := by
  unfold function
  split
  rename_i oneway atResult _ _
  refine .bind typeExpr_quiet ?_
  rintro ⟨result, afterResult, _⟩ τ _
  refine .lift_bind ?_
  rintro ⟨name, afterName, _⟩ _
  dsimp only
  split
  · exact .refuse_bind
  · refine .lift_bind ?_
    rintro ⟨_, inside, _⟩ _
    refine .bind fieldsUntil_quiet ?_
    rintro ⟨args, afterArgs, _⟩ υ _
    refine .bind throwsClause_quiet ?_
    rintro ⟨throws, afterThrows, _⟩ ω _
    dsimp only
    split
    · exact .refuse_bind
    · refine .lift_bind ?_
      rintro ⟨_, rest, _⟩ _
      exact .pure trivial

/-- Functions are added to a service without changing its name. -/
theorem functions_quiet {body : ServiceBody} :
    Quiet (functions r m body toks) (fun p => p.value.name = body.name) σ := by
  induction h : toks.length using Nat.strongRecOn generalizing toks body σ with
  | ind length ih =>
      unfold functions
      split
      · exact .pure rfl
      · refine .bind function_quiet ?_
        rintro ⟨⟨name, f⟩, afterFunction, _⟩ τ _
        refine .lift_bind fun body' added => ?_
        obtain ⟨next, _⟩ := skipSeparator afterFunction
        refine .bind (ih next.length (by omega) rfl) ?_
        rintro ⟨body'', rest, _⟩ υ same
        exact .pure (same.trans (by grind))

/-- The model that a rule gives includes the same models. -/
def SameIncludes (m : Model) (p : Parsed toks Model) : Prop := p.value.includes = m.includes

theorem namespaceDecl_includes {p : Parsed toks Model} (h : namespaceDecl r m toks = .ok p) :
    SameIncludes m p := by
  obtain ⟨keyword, _, h⟩ := bind_eq_ok h
  obtain ⟨generator, _, h⟩ := bind_eq_ok h
  obtain ⟨name, _, h⟩ := bind_eq_ok h
  obtain ⟨m', added, h⟩ := bind_eq_ok h
  cases h
  exact Model.addNamespace_includes (Reader.blame_eq_ok added)

theorem constDecl_quiet : Quiet (constDecl r m toks) (SameIncludes m) σ := by
  unfold constDecl
  refine .lift_bind fun keyword _ => .bind typeExpr_quiet fun ty τ _ => ?_
  refine .lift_bind fun name _ => .lift_bind fun equals _ => .getSet_bind ?_
  refine .lift_bind fun lit _ => .lift_bind fun c _ => .lift_bind fun m' added => .pure ?_
  exact Model.addConst_includes (Reader.blame_eq_ok added)

theorem enumDecl_quiet : Quiet (enumDecl r m toks) (SameIncludes m) σ := by
  unfold enumDecl
  refine .lift_bind ?_
  rintro ⟨keyword, atName, _⟩ _
  refine .lift_bind ?_
  rintro ⟨name, afterName, _⟩ _
  refine .updateSet_bind (.takeStamp σ.set) (.lift_bind ?_)
  rintro ⟨_, inside, _⟩ _
  refine .lift_bind ?_
  rintro ⟨b, afterBody, _⟩ _
  refine .lift_bind ?_
  rintro ⟨_, rest, _⟩ _
  refine .getSet_bind (.lift_bind ?_)
  rintro ⟨t, m', s⟩ added
  obtain ⟨includes, same⟩ := Model.addEnum_keeps (Reader.blame_eq_ok added)
  exact .setSet_bind same (.pure includes)

theorem recordDecl_quiet {kind : RecordKind} :
    Quiet (recordDecl r m kind toks) (SameIncludes m) σ := by
  unfold recordDecl
  refine .lift_bind ?_
  rintro ⟨keyword, atName, _⟩ _
  refine .lift_bind ?_
  rintro ⟨name, afterName, _⟩ _
  refine .lift_bind ?_
  rintro ⟨_, inside, _⟩ _
  refine .bind fieldsUntil_quiet ?_
  rintro ⟨fields, afterBody, _⟩ τ _
  refine .lift_bind ?_
  rintro ⟨notes, rest, _⟩ _
  refine .getSet_bind (.lift_bind ?_)
  rintro ⟨t, m', s⟩ added
  obtain ⟨includes, same⟩ := Model.addRecord_keeps (Reader.blame_eq_ok added)
  exact .setSet_bind same (.pure includes)

theorem serviceDecl_quiet : Quiet (serviceDecl r m toks) (SameIncludes m) σ := by
  unfold serviceDecl
  refine .lift_bind ?_
  rintro ⟨keyword, atName, _⟩ _
  refine .lift_bind ?_
  rintro ⟨name, afterName, _⟩ _
  refine .getSet_bind (.lift_bind ?_)
  rintro ⟨parent, afterParent, _⟩ _
  refine .lift_bind ?_
  rintro ⟨_, inside, _⟩ _
  refine .bind functions_quiet ?_
  rintro ⟨body, afterBody, _⟩ τ _
  refine .lift_bind ?_
  rintro ⟨_, rest, _⟩ _
  refine .getSet_bind (.lift_bind fun m' added => .pure ?_)
  exact Model.addService_includes (Reader.blame_eq_ok added)

/-- A declaration is an include, or it is quiet. -/
theorem declaration_cases (r : Reader) (origin : SourceRef) (m : Model) (toks : List Token) :
    (∀ load, declaration r origin load m toks = includeDecl r origin load m toks) ∨
      ∃ x : LoadM (Parsed toks Model), (∀ load, declaration r origin load m toks = x) ∧
        ∀ σ, Quiet x (SameIncludes m) σ := by
  unfold declaration
  dsimp only
  by_cases word : (r.current toks).kind ≠ .word
  · simp only [if_pos word]
    exact .inr ⟨_, fun _ => rfl, fun _ => .refuse⟩
  · simp only [if_neg word]
    generalize (r.current toks).text = text
    split
    · exact .inl fun _ => rfl
    · exact .inr ⟨_, fun _ => rfl, fun _ => .lift fun _ => namespaceDecl_includes⟩
    · exact .inr ⟨_, fun _ => rfl, fun _ => constDecl_quiet⟩
    · exact .inr ⟨_, fun _ => rfl, fun _ => enumDecl_quiet⟩
    · exact .inr ⟨_, fun _ => rfl, fun _ => recordDecl_quiet⟩
    · exact .inr ⟨_, fun _ => rfl, fun _ => recordDecl_quiet⟩
    · exact .inr ⟨_, fun _ => rfl, fun _ => recordDecl_quiet⟩
    · exact .inr ⟨_, fun _ => rfl, fun _ => serviceDecl_quiet⟩
    · exact .inr ⟨_, fun _ => rfl, fun _ => .refuse⟩

/-- An include asks the loader for its source if the model is unknown, and for nothing else. -/
theorem includeDecl_cases (r : Reader) (origin : SourceRef) (m : Model) (toks : List Token)
    (σ : LoadState) :
    (∃ out, (∀ load, (includeDecl r origin load m toks).exec σ = (out, σ)) ∧
      ∀ p, out = .ok p → ∃ n, σ.set.isLoaded n = true ∧ p.value = m.addInclude n) ∨
      ∃ source n, ∃ p : Parsed toks Model, source.modelName? = some n ∧ ¬ σ.set.Knows n ∧
        p.value = m.addInclude n ∧ ∀ load, (includeDecl r origin load m toks).exec σ =
          (load source >>= fun _ => pure p).exec
            { σ with log := σ.log ++ [.includes r.file source] } := by
  unfold includeDecl
  obtain ⟨e, failed⟩ | ⟨keyword, read⟩ := eq_error_or_eq_ok (dottedName r toks)
  · exact .inl ⟨.error e, fun _ => exec_lift_bind_error failed, nofun⟩
  simp only [exec_lift_bind read]
  obtain ⟨e, failed⟩ | ⟨pathToken, read⟩ :=
    eq_error_or_eq_ok (r.take (·.kind = .string) .includePath keyword.rest)
  · exact .inl ⟨.error e, fun _ => exec_lift_bind_error failed, nofun⟩
  simp only [exec_lift_bind read]
  obtain ⟨e, failed⟩ | ⟨path, read⟩ :=
    eq_error_or_eq_ok (r.spelled pathToken.value (Spelling.decodeString pathToken.value.text))
  · exact .inl ⟨.error e, fun _ => exec_lift_bind_error failed, nofun⟩
  simp only [exec_lift_bind read]
  cases named : (origin.parent.child path).modelName? with
  | none => exact .inl ⟨_, fun _ => rfl, nofun⟩
  | some name =>
      have seen : getSet.exec σ = (.ok σ.set, σ) := rfl
      simp only [exec_bind_ok seen]
      by_cases pending : σ.set.isPending name = true
      · simp only [if_pos pending]
        exact .inl ⟨_, fun _ => rfl, nofun⟩
      · simp only [if_neg pending]
        by_cases loaded : σ.set.isLoaded name = true
        · simp only [loaded]
          refine .inl ⟨_, fun _ => rfl, ?_⟩
          rintro p ⟨⟩
          exact ⟨name, loaded, rfl⟩
        · simp only [loaded]
          exact .inr ⟨_, name, _, named, fun known => known.elim loaded pending, rfl, fun _ => rfl⟩

end Idl

end IdlGen
