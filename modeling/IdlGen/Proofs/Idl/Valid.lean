import IdlGen.Proofs.Idl.Declarations
import IdlGen.Proofs.Idl.Literals

/-!
# The grammar gives valid models

A rule of the grammar that starts in a valid set ends in a valid one, whether it succeeds or not,
and what it reads is valid. Where a type is read, the registry has no type with `void` in it to
offer; where a value is read, it has been checked before the rule goes on. The types that a rule
registers make the space grow, over which all of this is said.
-/

namespace IdlGen

namespace LoadM

variable {α β : Type} {x : LoadM α} {f : α → LoadM β} {σ τ : LoadState} {space wider : TypeSpace}

/-- From a set that is valid over a space, the computation ends in a set that is valid over the same
space or one above it, and there its result is in `P`. -/
def Validates (space : TypeSpace) (x : LoadM α) (P : TypeSpace → α → Prop) (σ : LoadState) : Prop :=
  σ.set.Valid space → x.WP (fun a τ => ∃ wider ≥ space, τ.set.Valid wider ∧ P wider a)
    (fun _ τ => ∃ wider ≥ space, τ.set.Valid wider) σ

namespace Validates

variable {P P' : TypeSpace → α → Prop} {R : TypeSpace → β → Prop}

theorem pure {a : α} (post : P space a) : Validates space (Pure.pure a : LoadM α) P σ :=
  fun start => ⟨space, le_rfl, start, post⟩

theorem lift {y : Except SourceError α} (post : ∀ a, y = .ok a → P space a) :
    Validates space (liftM y : LoadM α) P σ :=
  fun start => WP.lift_iff.mpr
    ⟨fun a h => ⟨space, le_rfl, start, post a h⟩, fun _ _ => ⟨space, le_rfl, start⟩⟩

theorem refuse {e : SourceError} :
    Validates space (liftM (.error e : Except SourceError α) : LoadM α) P σ :=
  fun start => ⟨space, le_rfl, start⟩

theorem refuse_bind {e : SourceError} :
    Validates space (liftM (.error e : Except SourceError α) >>= f) R σ :=
  fun start => ⟨space, le_rfl, start⟩

/-- What is said over a space that has grown can be said from before that. -/
theorem after (grown : space ≤ wider) (valid : τ.set.Valid wider) (next : Validates wider x P τ) :
    x.WP (fun a υ => ∃ further ≥ space, υ.set.Valid further ∧ P further a)
      (fun _ υ => ∃ further ≥ space, υ.set.Valid further) τ :=
  WP.mono (next valid)
    (fun _ _ ⟨further, more, rest⟩ => ⟨further, grown.trans more, rest⟩)
    fun _ _ ⟨further, more, rest⟩ => ⟨further, grown.trans more, rest⟩

theorem bind (first : Validates space x P σ)
    (second : ∀ wider ≥ space, ∀ a τ, P wider a → Validates wider (f a) R τ) :
    Validates space (x >>= f) R σ :=
  fun start => WP.bind_iff.mpr (WP.mono (first start)
    (fun a τ ⟨wider, grown, valid, post⟩ => after grown valid (second wider grown a τ post))
    fun _ _ h => h)

theorem lift_bind {y : Except SourceError α}
    (next : ∀ a, y = .ok a → Validates space (f a) R σ) : Validates space (liftM y >>= f) R σ :=
  fun start => WP.bind_iff.mpr
    (WP.lift_iff.mpr ⟨fun a h => next a h start, fun _ _ => ⟨space, le_rfl, start⟩⟩)

/-- The set that is looked at is valid. -/
theorem getSet_bind {g : ModelSet → LoadM β}
    (next : σ.set.Valid space → Validates space (g σ.set) R σ) :
    Validates space (getSet >>= g) R σ :=
  fun start => next start start

theorem updateSet_bind {g : ModelSet → α × ModelSet}
    (step : σ.set.Valid space → ∃ wider ≥ space, (g σ.set).2.Valid wider ∧ P wider (g σ.set).1)
    (next : ∀ wider ≥ space, ∀ a τ, P wider a → Validates wider (f a) R τ) :
    Validates space (updateSet g >>= f) R σ := by
  intro start
  obtain ⟨wider, grown, valid, post⟩ := step start
  exact WP.bind_iff.mpr (WP.updateSet_iff.mpr (after grown valid (next wider grown _ _ post)))

theorem setSet_bind {s : ModelSet} {g : Unit → LoadM β} (grown : space ≤ wider)
    (valid : s.Valid wider) (next : ∀ τ, Validates wider (g ()) R τ) :
    Validates space (setSet s >>= g) R σ :=
  fun _ => WP.bind_iff.mpr (WP.setSet_iff.mpr (after grown valid (next _)))

theorem tell_bind {event : LoadEvent} {g : Unit → LoadM β}
    (next : ∀ τ, Validates space (g ()) R τ) : Validates space (tell event >>= g) R σ :=
  fun start => WP.bind_iff.mpr (WP.tell_iff.mpr (next _ start))

theorem mono (h : Validates space x P σ) (post : ∀ wider a, P wider a → P' wider a) :
    Validates space x P' σ :=
  fun start => WP.mono (h start)
    (fun a _ ⟨wider, grown, valid, ha⟩ => ⟨wider, grown, valid, post wider a ha⟩) fun _ _ h => h

end Validates

end LoadM

open LoadM

namespace Idl

variable {r : Reader} {m : Model} {declaring : Declaring} {σ : LoadState} {toks : List Token}
  {space : TypeSpace}

theorem namedType_valid {t : Token} {s : ModelSet} {ty : Ty} (valid : s.Valid space)
    (h : namedType r m declaring t s = .ok ty) : ty.VoidFree ∧ space.mem ty := by
  unfold namedType at h
  split at h
  · next found =>
      cases h
      rcases Option.or_eq_some_iff.mp found with own | ⟨_, any⟩
      · exact valid.type? own
      · exact valid.type? any
  · repeat' split at h
    all_goals cases h

theorem request_valid {α : Type} {c : Container} {f : Ty → LoadM α} {P : TypeSpace → α → Prop}
    (elements : ∀ e ∈ c.elements, e.VoidFree ∧ space.mem e)
    (next : ∀ wider ≥ space, ∀ t τ, t.VoidFree ∧ wider.mem t → Validates wider (f t) P τ) :
    Validates space (updateSet (fun s => c.request s) >>= f) P σ :=
  .updateSet_bind (fun valid => valid.request elements) next

/-- Only where it is allowed does a type expression give `void`, and never inside of brackets. -/
theorem typeExpr_valid {allowVoid : Bool} :
    Validates space (typeExpr r m declaring allowVoid toks)
      (fun wider p => allowVoid = true ∧ p.value = .void ∨ p.value.VoidFree ∧ wider.mem p.value)
      σ := by
  induction h : toks.length using Nat.strongRecOn generalizing toks allowVoid σ space with
  | ind length ih =>
      have elem : ∀ {inside : List Token} {τ : LoadState} {space : TypeSpace},
          inside.length < length → Validates space (typeExpr r m declaring false inside)
            (fun wider p => p.value.VoidFree ∧ wider.mem p.value) τ := by
        intro inside τ space shorter
        refine (ih inside.length shorter rfl).mono fun wider p read => ?_
        exact read.resolve_left (by simp)
      unfold typeExpr
      split
      · exact .refuse
      · simp only [List.length_cons] at h
        split
        · exact .refuse
        · split
          · split
            · rename_i allowed
              exact .pure (.inl ⟨allowed, rfl⟩)
            · exact .refuse
          · intro set
            exact ⟨space, le_rfl, set, .inr ⟨Ty.voidFree_prim (by decide), set.primitives _⟩⟩
          · refine .lift_bind ?_
            rintro ⟨_, inside, _⟩ _
            refine .bind (elem (by omega)) ?_
            rintro wider _ ⟨e, _, _⟩ τ ⟨free, member⟩
            refine .lift_bind ?_
            rintro ⟨_, _, _⟩ _
            exact request_valid (c := .list e) (by simpa using ⟨free, member⟩)
              fun _ _ _ _ made => .pure (.inr made)
          · refine .lift_bind ?_
            rintro ⟨_, inside, _⟩ _
            refine .bind (elem (by omega)) ?_
            rintro wider _ ⟨e, _, _⟩ τ ⟨free, member⟩
            refine .lift_bind ?_
            rintro ⟨_, _, _⟩ _
            exact request_valid (c := .set e) (by simpa using ⟨free, member⟩)
              fun _ _ _ _ made => .pure (.inr made)
          · refine .lift_bind ?_
            rintro ⟨_, inside, _⟩ _
            refine .bind (elem (by omega)) ?_
            rintro wider _ ⟨k, _, _⟩ τ ⟨keyFree, key⟩
            refine .lift_bind ?_
            rintro ⟨_, afterComma, _⟩ _
            refine .bind (elem (by omega)) ?_
            rintro further grown ⟨v, _, _⟩ υ ⟨valueFree, value⟩
            refine .lift_bind ?_
            rintro ⟨_, _, _⟩ _
            exact request_valid (c := .map k v)
              (by simpa using ⟨⟨keyFree, grown k key⟩, valueFree, value⟩)
              fun _ _ _ _ made => .pure (.inr made)
          · refine .getSet_bind fun valid => .lift_bind fun ty found => ?_
            exact .pure (.inr (namedType_valid valid found))

theorem field_valid (valid : m.Valid space) :
    Validates space (field r m declaring toks) (fun wider p => p.value.2.Valid wider) σ := by
  unfold field
  refine .lift_bind ?_
  rintro ⟨idToken, afterId, _⟩ _
  refine .lift_bind fun id _ => .lift_bind ?_
  rintro ⟨_, afterColon, _⟩ _
  refine .bind typeExpr_valid ?_
  rintro wider grown ⟨ty, afterType, _⟩ τ read
  obtain ⟨voidFree, member⟩ := read.resolve_left (by simp)
  refine .lift_bind ?_
  rintro ⟨name, afterName, _⟩ _
  refine .getSet_bind fun set => .lift_bind ?_
  rintro ⟨default, afterDefault, _⟩ parsed
  have given := fieldDefault_built (fun _ _ => (valid.mono grown).lookup_const set) parsed
  refine .lift_bind ?_
  rintro ⟨notes, rest, _⟩ _
  refine .lift_bind fun f built => .pure ?_
  exact Field.valid_ofLiteral voidFree member given (Reader.blame_eq_ok built)

theorem fieldsUntil_valid {close : String} {acc : FieldSet Ty} (valid : m.Valid space)
    (before : acc.Valid space) :
    Validates space (fieldsUntil r m declaring close acc toks)
      (fun wider p => p.value.Valid wider) σ := by
  induction h : toks.length using Nat.strongRecOn generalizing toks acc σ space with
  | ind length ih =>
      unfold fieldsUntil
      split
      · exact .pure before
      · refine .bind (field_valid valid) ?_
        rintro wider grown ⟨⟨idToken, f⟩, afterField, _⟩ τ new
        refine .lift_bind fun acc' added => ?_
        obtain ⟨next, _⟩ := skipSeparator afterField
        have after : acc'.Valid wider := (before.mono grown).add new (Reader.blame_eq_ok added)
        refine .bind (ih next.length (by omega) (valid.mono grown) after rfl) ?_
        rintro further _ ⟨acc'', rest, _⟩ υ all
        exact .pure all

theorem throwsClause_valid {owner : String} (valid : m.Valid space) :
    Validates space (throwsClause r m owner toks) (fun wider p => p.value.Valid wider) σ := by
  unfold throwsClause
  split
  · exact .pure (FieldSet.valid_nil owner)
  · refine .lift_bind fun inside _ => ?_
    exact .bind (fieldsUntil_valid valid (FieldSet.valid_nil owner))
      fun _ _ fields τ all => .pure all

theorem function_valid {service : String} (valid : m.Valid space) :
    Validates space (function r m service toks) (fun wider p => p.value.2.Valid wider) σ := by
  unfold function
  split
  rename_i oneway atResult _ _
  refine .bind typeExpr_valid ?_
  rintro wider grown ⟨result, afterResult, _⟩ τ read
  have valid := valid.mono grown
  refine .lift_bind ?_
  rintro ⟨name, afterName, _⟩ _
  dsimp only
  split
  · exact .refuse_bind
  · next noResult =>
      refine .lift_bind ?_
      rintro ⟨_, inside, _⟩ _
      refine .bind (fieldsUntil_valid valid (FieldSet.valid_nil _)) ?_
      rintro atArgs grown ⟨args, afterArgs, _⟩ υ validArgs
      refine .bind (throwsClause_valid (valid.mono grown)) ?_
      rintro atThrows grown ⟨throws, afterThrows, _⟩ ω validThrows
      dsimp only
      split
      · exact .refuse_bind
      · next onlyExceptions =>
          refine .lift_bind ?_
          rintro ⟨_, rest, _⟩ _
          refine .pure ⟨?_, ?_, validArgs.mono grown, validThrows, ?_⟩
          · exact read.imp And.right And.left
          · intro isOneway
            have isVoid : oneway = true → result.isVoid = true := by simpa using noResult
            exact Ty.eq_void_of_isVoid (isVoid isOneway)
          · intro x member
            simpa using List.find?_eq_none.mp onlyExceptions x member

theorem functions_valid {body : ServiceBody} (valid : m.Valid space) (before : body.Valid space) :
    Validates space (functions r m body toks) (fun wider p => p.value.Valid wider) σ := by
  induction h : toks.length using Nat.strongRecOn generalizing toks body σ space with
  | ind length ih =>
      unfold functions
      split
      · exact .pure before
      · refine .bind (function_valid valid) ?_
        rintro wider grown ⟨⟨name, f⟩, afterFunction, _⟩ τ new
        refine .lift_bind fun body' added => ?_
        obtain ⟨next, _⟩ := skipSeparator afterFunction
        have after : body'.Valid wider :=
          (before.mono grown).addFunction new (Reader.blame_eq_ok added)
        refine .bind (ih next.length (by omega) (valid.mono grown) after rfl) ?_
        rintro further _ ⟨body'', rest, _⟩ υ all
        exact .pure all

/-- The parent of a service is valid, wherever it comes from. -/
theorem extendsClause_valid {s : ModelSet} {p : Scanned toks (Option Service)}
    (valid : m.Valid space) (set : s.Valid space) (h : extendsClause r m s toks = .ok p) :
    ∀ parent, p.value = some parent → parent.Valid space := by
  intro parent isParent
  unfold extendsClause at h
  split at h
  · cases h
    cases isParent
  · obtain ⟨name, _, h⟩ := bind_eq_ok h
    obtain ⟨found, looked, h⟩ := bind_eq_ok h
    cases h
    cases isParent
    exact valid.lookupService set (Reader.blame_eq_ok looked)

theorem namespaceDecl_valid {p : Parsed toks Model} (valid : m.Valid space)
    (h : namespaceDecl r m toks = .ok p) : p.value.Valid space := by
  obtain ⟨keyword, _, h⟩ := bind_eq_ok h
  obtain ⟨generator, _, h⟩ := bind_eq_ok h
  obtain ⟨name, _, h⟩ := bind_eq_ok h
  obtain ⟨m', added, h⟩ := bind_eq_ok h
  cases h
  exact valid.addNamespace (Reader.blame_eq_ok added)

theorem constDecl_valid (valid : m.Valid space) :
    Validates space (constDecl r m toks) (fun wider p => p.value.Valid wider) σ := by
  unfold constDecl
  refine .lift_bind fun keyword _ => .bind typeExpr_valid fun wider grown ty τ read => ?_
  obtain ⟨voidFree, member⟩ := read.resolve_left (by simp)
  have valid := valid.mono grown
  refine .lift_bind fun name _ => .lift_bind fun equals _ => .getSet_bind fun set => ?_
  refine .lift_bind fun lit parsed => .lift_bind fun c built => .lift_bind fun m' added => .pure ?_
  have given := (readsBuilt (fun _ _ => valid.lookup_const set) equals.rest).literal parsed
  have new : c.Valid wider :=
    Constant.valid_ofLiteral voidFree member given (Reader.blame_eq_ok built)
  exact valid.addConst new (Reader.blame_eq_ok added)

theorem enumDecl_valid (valid : m.Valid space) :
    Validates space (enumDecl r m toks) (fun wider p => p.value.Valid wider) σ := by
  unfold enumDecl
  refine .lift_bind ?_
  rintro ⟨keyword, atName, _⟩ _
  refine .lift_bind ?_
  rintro ⟨name, afterName, _⟩ _
  refine .updateSet_bind (P := fun _ _ => True)
    (fun set => ⟨space, le_rfl, set.takeStamp, trivial⟩) fun wider grown b τ _ => ?_
  refine .lift_bind ?_
  rintro ⟨_, inside, _⟩ _
  refine .lift_bind ?_
  rintro ⟨b, afterBody, _⟩ _
  refine .lift_bind ?_
  rintro ⟨_, rest, _⟩ _
  refine .getSet_bind fun set => .lift_bind ?_
  rintro ⟨t, m', s⟩ added
  obtain ⟨further, more, set', valid'⟩ :=
    (valid.mono grown).addEnum set (Reader.blame_eq_ok added)
  exact .setSet_bind more set' fun _ => .pure valid'

theorem recordDecl_valid {kind : RecordKind} (valid : m.Valid space) :
    Validates space (recordDecl r m kind toks) (fun wider p => p.value.Valid wider) σ := by
  unfold recordDecl
  refine .lift_bind ?_
  rintro ⟨keyword, atName, _⟩ _
  refine .lift_bind ?_
  rintro ⟨name, afterName, _⟩ _
  refine .lift_bind ?_
  rintro ⟨_, inside, _⟩ _
  refine .bind (fieldsUntil_valid valid (FieldSet.valid_nil _)) ?_
  rintro wider grown ⟨fields, afterBody, _⟩ τ new
  refine .lift_bind ?_
  rintro ⟨notes, rest, _⟩ _
  refine .getSet_bind fun set => .lift_bind ?_
  rintro ⟨t, m', s⟩ added
  obtain ⟨further, more, set', valid'⟩ :=
    (valid.mono grown).addRecord set new (Reader.blame_eq_ok added)
  exact .setSet_bind more set' fun _ => .pure valid'

theorem serviceDecl_valid (valid : m.Valid space) :
    Validates space (serviceDecl r m toks) (fun wider p => p.value.Valid wider) σ := by
  unfold serviceDecl
  refine .lift_bind ?_
  rintro ⟨keyword, atName, _⟩ _
  refine .lift_bind ?_
  rintro ⟨name, afterName, _⟩ _
  refine .getSet_bind fun set => .lift_bind ?_
  rintro ⟨parent, afterParent, _⟩ extended
  have above := extendsClause_valid valid set extended
  refine .lift_bind ?_
  rintro ⟨_, inside, _⟩ _
  refine .bind (functions_valid valid ⟨by simp, by simp⟩) ?_
  rintro wider grown ⟨body, afterBody, _⟩ τ validBody
  refine .lift_bind ?_
  rintro ⟨_, rest, _⟩ _
  refine .getSet_bind fun _ => .lift_bind fun m' added => .pure ?_
  have made := Service.valid_make validBody fun p isParent => (above p isParent).mono grown
  exact (valid.mono grown).addService made (Reader.blame_eq_ok added)

variable {origin : SourceRef} {load : Loader}

/-- What the loader loads is valid. -/
def Loader.Valid (load : Loader) : Prop :=
  ∀ space source σ, Validates space (load source) (fun _ _ => True) σ

theorem includeDecl_valid (loads : load.Valid) (valid : m.Valid space) :
    Validates space (includeDecl r origin load m toks) (fun wider p => p.value.Valid wider) σ := by
  unfold includeDecl
  refine .lift_bind fun keyword _ => .lift_bind fun pathToken _ => .lift_bind fun path _ => ?_
  dsimp only
  split
  · exact .refuse
  · refine .getSet_bind fun _ => ?_
    split
    · exact .refuse_bind
    · split
      · refine .tell_bind fun τ => .bind (loads space _ τ) fun wider grown _ υ _ => ?_
        exact .pure ((valid.mono grown).addInclude _)
      · exact .pure (valid.addInclude _)

theorem declaration_valid (loads : load.Valid) (valid : m.Valid space) :
    Validates space (declaration r origin load m toks) (fun wider p => p.value.Valid wider) σ := by
  unfold declaration
  dsimp only
  split
  · exact .refuse
  · split
    · exact includeDecl_valid loads valid
    · exact .lift fun p read => namespaceDecl_valid valid read
    · exact constDecl_valid valid
    · exact enumDecl_valid valid
    · exact recordDecl_valid valid
    · exact recordDecl_valid valid
    · exact recordDecl_valid valid
    · exact serviceDecl_valid valid
    · exact .refuse

theorem document_valid (loads : load.Valid) (valid : m.Valid space) :
    Validates space (document r origin load m toks) (fun wider m' => m'.Valid wider) σ := by
  induction h : toks.length using Nat.strongRecOn generalizing toks m σ space with
  | ind length ih =>
      unfold document
      split
      · exact .pure valid
      · refine .bind (declaration_valid loads valid) ?_
        rintro wider _ ⟨m', afterDeclaration, _⟩ τ valid'
        dsimp only
        obtain ⟨next, _⟩ := skipSeparator afterDeclaration
        exact ih next.length (by omega) valid' rfl

end Idl

end IdlGen
