import IdlGen.Proofs.Idl.Declarations
import IdlGen.Proofs.Idl.Quiet
import IdlGen.Proofs.Model.Names
import Mathlib.Logic.Relation

/-!
# What a declaration adds

A declaration of a file is one addition to the model that is being read, and the addition is the
last thing that happens: all that goes before it is to register containers and, for an include, to
load a model. So a declaration that fails registers no type of its own model.

A file is read by one such declaration after another. `Reads` is that run, and a file that fails has
been read up to the declaration that fails.
-/

namespace IdlGen

open LoadM

/-- The name is an identifier, as all names are that the grammar declares. -/
def Identifier (name : String) : Prop := Shape.isIdentifier name.toList = true

theorem Identifier.pointFree {name : String} (h : Identifier name) : PointFree name :=
  Shape.point_not_mem_of_isIdentifier h

@[grind →]
theorem Constant.ofLiteral_name {model : Option String} {name : String} {type : Ty} {lit : Literal}
    {docs : Docs} {c : Constant} (h : Constant.ofLiteral model name type lit docs = .ok c) :
    c.name = name := by
  obtain ⟨_, _, h⟩ := bind_eq_ok h
  cases h
  rfl

/-- One addition takes the model and the set to others. -/
inductive Model.Grows (m : Model) (s : ModelSet) : Model → ModelSet → Prop
  | addInclude (name : String) : m.Grows s (m.addInclude name) s
  | addNamespace {m' : Model} {ns : Namespace} (added : m.addNamespace ns = .ok m') : m.Grows s m' s
  | add {m' : Model} {s' : ModelSet} {d : Declaration} (named : d.Named Identifier Identifier)
      (added : d.add s m = .ok (m', s')) : m.Grows s m' s'

@[simp, grind =] theorem Model.named_addInclude {m : Model} (name : String) :
    (m.addInclude name).named = m.named := by
  unfold Model.addInclude
  split <;> rfl

@[grind →] theorem Model.named_addNamespace {m m' : Model} {ns : Namespace}
    (h : m.addNamespace ns = .ok m') : m'.named = m.named := by
  unfold Model.addNamespace at h
  split at h <;> cases h
  rfl

namespace Model.Grows

variable {m m' : Model} {s s' : ModelSet}

theorem builtBy (grows : m.Grows s m' s')
    (built : m.BuiltBy (Declaration.Named Identifier Identifier)) :
    m'.BuiltBy (Declaration.Named Identifier Identifier) := by
  cases grows with
  | addInclude name => exact built.addInclude name
  | addNamespace added => exact built.addNamespace added
  | add named added => exact built.add named added

/-- An addition registers at most one type, which the model declares from then on and whose name was
free before. -/
theorem progress (grows : m.Grows s m' s') (wf : s.WellFormed) (wf' : s'.WellFormed) :
    s.Progress (· ∈ m'.named) s' ∧ (∀ t ∈ m.named, t ∈ m'.named) ∧
      ∀ t ∈ m'.named, t ∈ m.named ∨ s.type? t.qname = none := by
  have unchanged (same : m'.named = m.named) : s.Progress (· ∈ m'.named) s ∧
      (∀ t ∈ m.named, t ∈ m'.named) ∧ ∀ t ∈ m'.named, t ∈ m.named ∨ s.type? t.qname = none := by
    rw [same]
    exact ⟨.refl wf, fun _ => id, fun _ => .inl⟩
  cases grows with
  | addInclude name => exact unchanged (Model.named_addInclude name)
  | addNamespace added => exact unchanged (Model.named_addNamespace added)
  | @add _ _ d _ added =>
      obtain ⟨_, registered, rfl⟩ := Declaration.add_eq_ok added
      have kept : ∀ t ∈ m.named, t ∈ (d.push s.stamps.next m).named :=
        fun t old => Declaration.mem_named_push.mpr (.inl old)
      rcases Declaration.register_cases wf registered with ⟨type, rfl⟩ | ⟨t, type, free, rfl⟩
      · refine ⟨.refl wf, kept, fun u member => ?_⟩
        exact .inl ((Declaration.mem_named_push.mp member).resolve_right (by simp [type]))
      · have new : t ∈ (d.push s.stamps.next m).named := Declaration.mem_named_push.mpr (.inr type)
        have stamp := (Declaration.type?_eq_some type).1
        refine ⟨⟨[], .add free stamp fun _ => new, wf', by simp⟩, kept, fun u member => ?_⟩
        refine (Declaration.mem_named_push.mp member).imp_right fun same => ?_
        cases type.symm.trans same
        exact free

end Model.Grows

namespace LoadM

variable {α : Type} {m : Model} {σ : LoadState} {toks : List Token}

theorem Declares.and_quiet {D : Ty → Prop} {x : LoadM α} {P : α → ModelSet → Prop} {R : α → Prop}
    (declares : Declares D x P σ) (quiet : Quiet x R σ) :
    Declares D x (fun a s => P a s ∧ R a) σ :=
  (WP.and declares quiet).mono (fun _ _ ⟨⟨progress, post⟩, _, result⟩ => ⟨progress, post, result⟩)
    fun _ _ h => h.1

/-- The computation ends with an addition to the model, before which it declares nothing. -/
def Adds (m : Model) (x : LoadM (Parsed toks Model)) (σ : LoadState) : Prop :=
  x.WP
    (fun p τ => ∃ s, σ.set.Progress (fun _ => False) s ∧ m.Grows s p.value τ.set)
    (fun _ τ => σ.set.Setback (fun _ => False) τ.set) σ

namespace Adds

variable {x : LoadM α} {f : α → LoadM (Parsed toks Model)} {p : Parsed toks Model}

theorem pure (wf : σ.set.WellFormed) (grows : m.Grows σ.set p.value σ.set) :
    Adds m (Pure.pure p : LoadM (Parsed toks Model)) σ :=
  ⟨σ.set, .refl wf, grows⟩

theorem setSet {s : ModelSet} (wf : σ.set.WellFormed) (grows : m.Grows σ.set p.value s) :
    Adds m (LoadM.setSet s >>= fun _ => (Pure.pure p : LoadM (Parsed toks Model))) σ :=
  ⟨σ.set, .refl wf, grows⟩

theorem lift {y : Except SourceError (Parsed toks Model)} (wf : σ.set.WellFormed)
    (grows : ∀ p, y = .ok p → m.Grows σ.set p.value σ.set) :
    Adds m (liftM y : LoadM (Parsed toks Model)) σ :=
  WP.lift_iff.mpr ⟨fun p h => ⟨σ.set, .refl wf, grows p h⟩,
    fun _ _ => (ModelSet.Progress.refl wf).setback⟩

theorem refuse {e : SourceError} (wf : σ.set.WellFormed) :
    Adds m (liftM (.error e : Except SourceError (Parsed toks Model)) :
      LoadM (Parsed toks Model)) σ :=
  (ModelSet.Progress.refl wf).setback

theorem refuse_bind {e : SourceError} (wf : σ.set.WellFormed) :
    Adds m (liftM (.error e : Except SourceError α) >>= f) σ :=
  (ModelSet.Progress.refl wf).setback

theorem after {x : LoadM (Parsed toks Model)} {τ : LoadState}
    (progress : σ.set.Progress (fun _ => False) τ.set) (next : Adds m x τ) :
    x.WP (fun p υ => ∃ s, σ.set.Progress (fun _ => False) s ∧ m.Grows s p.value υ.set)
      (fun _ υ => σ.set.Setback (fun _ => False) υ.set) τ :=
  WP.mono next (fun _ _ ⟨s, further, grows⟩ => ⟨s, progress.trans further, grows⟩)
    fun _ _ => progress.trans_setback

theorem bind {P : α → ModelSet → Prop} (first : Declares (fun _ => False) x P σ)
    (second : ∀ a τ, σ.set.Progress (fun _ => False) τ.set → P a τ.set → Adds m (f a) τ) :
    Adds m (x >>= f) σ :=
  WP.bind_iff.mpr (WP.mono first
    (fun a τ ⟨progress, post⟩ => after progress (second a τ progress post)) fun _ _ h => h)

theorem lift_bind {y : Except SourceError α} (wf : σ.set.WellFormed)
    (next : ∀ a, y = .ok a → Adds m (f a) σ) : Adds m (liftM y >>= f) σ :=
  WP.bind_iff.mpr (WP.lift_iff.mpr ⟨next, fun _ _ => (ModelSet.Progress.refl wf).setback⟩)

theorem getSet_bind {g : ModelSet → LoadM (Parsed toks Model)} (next : Adds m (g σ.set) σ) :
    Adds m (getSet >>= g) σ :=
  next

theorem updateSet_bind {g : ModelSet → α × ModelSet}
    (progress : σ.set.Progress (fun _ => False) (g σ.set).2)
    (next : Adds m (f (g σ.set).1) { σ with set := (g σ.set).2 }) :
    Adds m (updateSet g >>= f) σ :=
  WP.bind_iff.mpr (WP.updateSet_iff.mpr (after progress next))

theorem tell_bind {event : LoadEvent} {g : Unit → LoadM (Parsed toks Model)}
    (next : Adds m (g ()) { σ with log := σ.log ++ [event] }) : Adds m (tell event >>= g) σ :=
  next

end Adds

end LoadM

namespace Idl

variable {r : Reader} {m : Model} {σ : LoadState} {toks : List Token}

theorem namespaceDecl_grows {p : Parsed toks Model} (h : namespaceDecl r m toks = .ok p) :
    m.Grows σ.set p.value σ.set := by
  obtain ⟨keyword, _, h⟩ := bind_eq_ok h
  obtain ⟨generator, _, h⟩ := bind_eq_ok h
  obtain ⟨name, _, h⟩ := bind_eq_ok h
  obtain ⟨m', added, h⟩ := bind_eq_ok h
  cases h
  exact .addNamespace (Reader.blame_eq_ok added)

theorem constDecl_adds (wf : σ.set.WellFormed) : Adds m (constDecl r m toks) σ := by
  unfold constDecl
  refine .lift_bind wf fun keyword _ => ?_
  refine .bind (typeExpr_declares wf) fun ty τ made _ => ?_
  have wf := made.wellFormed
  refine .lift_bind wf fun name isName => .lift_bind wf fun equals _ => .getSet_bind ?_
  refine .lift_bind wf fun lit _ => .lift_bind wf fun c built => ?_
  refine .lift_bind wf fun m' added => .pure wf (.add (d := .const c) ⟨?_, by simp⟩ ?_)
  · have named : c.name = name.value.text := by grind
    exact (congrArg Identifier named).mpr (identifier_eq_ok isName)
  · rw [Declaration.add, Reader.blame_eq_ok added]
    rfl

theorem enumElement_reached {b : EnumBuilder} {p : Parsed toks EnumBuilder}
    (reached : b.Reached Identifier) (h : enumElement r b toks = .ok p) :
    p.value.Reached Identifier := by
  obtain ⟨name, isName, h⟩ := bind_eq_ok h
  split at h
  · obtain ⟨idToken, _, h⟩ := bind_eq_ok h
    obtain ⟨id, _, h⟩ := bind_eq_ok h
    obtain ⟨b', added, h⟩ := bind_eq_ok h
    cases h
    exact .addWithId reached (identifier_eq_ok isName) (Reader.blame_eq_ok added)
  · obtain ⟨b', added, h⟩ := bind_eq_ok h
    cases h
    exact reached.add (identifier_eq_ok isName) (Reader.blame_eq_ok added)

/-- The elements of an enumeration are added one by one, and their names are identifiers. -/
theorem enumElements_reached {b : EnumBuilder} {p : Parsed toks EnumBuilder}
    (reached : b.Reached Identifier) (h : enumElements r b toks = .ok p) :
    p.value.Reached Identifier := by
  induction length : toks.length using Nat.strongRecOn generalizing toks b p with
  | ind length ih =>
      unfold enumElements at h
      split at h
      · cases h
        exact reached
      · obtain ⟨⟨b', afterElement, _⟩, element, h⟩ := bind_eq_ok h
        obtain ⟨⟨_, afterNotes, _⟩, _, h⟩ := bind_eq_ok h
        have shorter := (skipSeparator afterNotes).2
        obtain ⟨rest, further, h⟩ := bind_eq_ok h
        cases h
        have all : rest.value.Reached Identifier :=
          ih (skipSeparator afterNotes).1.length (by omega)
            (enumElement_reached reached element) further rfl
        exact all

theorem enumDecl_adds (wf : σ.set.WellFormed) : Adds m (enumDecl r m toks) σ := by
  unfold enumDecl
  refine .lift_bind wf ?_
  rintro ⟨keyword, atName, _⟩ _
  refine .lift_bind wf ?_
  rintro ⟨name, afterName, _⟩ isName
  have made : σ.set.Progress (fun _ => False) (σ.set.newEnum (m.qname name.text) keyword.docs).2 :=
    .takeStamp wf
  refine .updateSet_bind made ?_
  have wf := made.wellFormed
  refine .lift_bind wf ?_
  rintro ⟨_, inside, _⟩ _
  refine .lift_bind wf ?_
  rintro ⟨b, afterBody, _⟩ read
  refine .lift_bind wf ?_
  rintro ⟨_, rest, _⟩ _
  refine .getSet_bind (.lift_bind wf ?_)
  rintro ⟨t, m', s⟩ added
  refine .setSet wf (.add (d := .enum name.text b.build) ⟨identifier_eq_ok isName, ?_⟩ ?_)
  · rintro _ _ ⟨⟩
    exact ⟨b, enumElements_reached (.new _ _ _) read, rfl⟩
  · rw [Declaration.add, Reader.blame_eq_ok added]
    rfl

theorem recordDecl_adds {kind : RecordKind} (wf : σ.set.WellFormed) :
    Adds m (recordDecl r m kind toks) σ := by
  unfold recordDecl
  refine .lift_bind wf ?_
  rintro ⟨keyword, atName, _⟩ _
  refine .lift_bind wf ?_
  rintro ⟨name, afterName, _⟩ isName
  refine .lift_bind wf ?_
  rintro ⟨_, inside, _⟩ _
  refine .bind (fieldsUntil_declares wf (by simp [FieldSet.types])) ?_
  rintro ⟨fields, afterBody, _⟩ τ made _
  have wf := made.wellFormed
  refine .lift_bind wf ?_
  rintro ⟨notes, rest, _⟩ _
  refine .getSet_bind (.lift_bind wf ?_)
  rintro ⟨t, m', s⟩ added
  refine .setSet wf (.add (d := .record (kind = .exception) name.text
    ⟨fields, kind = .union, notes, keyword.docs⟩) ⟨identifier_eq_ok isName, by simp⟩ ?_)
  rw [Declaration.add, Reader.blame_eq_ok added]
  rfl

theorem serviceDecl_adds (wf : σ.set.WellFormed) : Adds m (serviceDecl r m toks) σ := by
  unfold serviceDecl
  refine .lift_bind wf ?_
  rintro ⟨keyword, atName, _⟩ _
  refine .lift_bind wf ?_
  rintro ⟨name, afterName, _⟩ isName
  refine .getSet_bind (.lift_bind wf ?_)
  rintro ⟨parent, afterParent, _⟩ _
  refine .lift_bind wf ?_
  rintro ⟨_, inside, _⟩ _
  refine .bind ((functions_declares wf (by simp)).and_quiet functions_quiet) ?_
  rintro ⟨body, afterBody, _⟩ τ made ⟨_, sameName⟩
  have wf := made.wellFormed
  refine .lift_bind wf ?_
  rintro ⟨_, rest, _⟩ _
  refine .getSet_bind (.lift_bind wf fun m' added => ?_)
  refine .pure wf (.add (d := .service (Service.make body parent)) ⟨?_, by simp⟩ ?_)
  · have named : (Service.make body parent).name = name.text := by
      rw [Service.name, Service.body_make]
      exact sameName
    exact (congrArg Identifier named).mpr (identifier_eq_ok isName)
  · rw [Declaration.add, Reader.blame_eq_ok added]
    rfl

variable {origin : SourceRef} {load : Loader}

theorem includeDecl_adds (steady : load.Steady) (wf : σ.set.WellFormed) :
    Adds m (includeDecl r origin load m toks) σ := by
  unfold includeDecl
  refine .lift_bind wf fun keyword _ => .lift_bind wf fun pathToken _ => ?_
  refine .lift_bind wf fun path _ => ?_
  dsimp only
  split
  · exact .refuse wf
  · refine .getSet_bind ?_
    split
    · exact .refuse_bind wf
    · split
      · refine .tell_bind (.bind (steady _ _ wf) fun _ τ made _ => ?_)
        exact .pure made.wellFormed (.addInclude _)
      · exact .pure wf (.addInclude _)

theorem declaration_adds (steady : load.Steady) (wf : σ.set.WellFormed) :
    Adds m (declaration r origin load m toks) σ := by
  unfold declaration
  dsimp only
  split
  · exact .refuse wf
  · split
    · exact includeDecl_adds steady wf
    · exact .lift wf fun p read => namespaceDecl_grows read
    · exact constDecl_adds wf
    · exact enumDecl_adds wf
    · exact recordDecl_adds wf
    · exact recordDecl_adds wf
    · exact recordDecl_adds wf
    · exact serviceDecl_adds wf
    · exact .refuse wf

/-- How far a file has been read: the model so far, the tokens that are left, and the state. -/
structure Place where
  model : Model
  rest : List Token
  state : LoadState

/-- One declaration is read, with the separator after it. -/
inductive ReadStep (r : Reader) (origin : SourceRef) (load : Loader) : Place → Place → Prop
  | intro {m : Model} {t : Token} {rest : List Token} {σ τ : LoadState}
      {p : Parsed (t :: rest) Model}
      (read : (declaration r origin load m (t :: rest)).exec σ = (.ok p, τ)) :
      ReadStep r origin load ⟨m, t :: rest, σ⟩ ⟨p.value, (skipSeparator p.rest).1, τ⟩

/-- Any number of declarations are read. -/
def Reads (r : Reader) (origin : SourceRef) (load : Loader) : Place → Place → Prop :=
  Relation.ReflTransGen (ReadStep r origin load)

/-- A file is read to its end, or to a declaration that fails. -/
theorem document_reads (r : Reader) (origin : SourceRef) (load : Loader) (m : Model)
    (toks : List Token) (σ : LoadState) :
    (document r origin load m toks).WP
      (fun m' τ => Reads r origin load ⟨m, toks, σ⟩ ⟨m', [], τ⟩)
      (fun e τ => ∃ b : Place, Reads r origin load ⟨m, toks, σ⟩ b ∧
        (declaration r origin load b.model b.rest).exec b.state = (.error e, τ)) σ := by
  -- On the number of tokens, as a declaration and its separator may take any number of them.
  induction h : toks.length using Nat.strongRecOn generalizing toks m σ with
  | ind length ih =>
      unfold document
      split
      · exact .refl
      · rename_i t rest
        refine WP.bind_iff.mpr (WP.mono .of_exec ?_ fun e τ failed => ⟨_, .refl, failed⟩)
        intro p τ read
        have step := ReadStep.intro read
        have shorter := p.shorter
        have separated := (skipSeparator p.rest).2
        refine WP.mono (ih (skipSeparator p.rest).1.length (by omega) p.value _ τ rfl) ?_ ?_
        · intro m' υ further
          exact .head step further
        · rintro e υ ⟨b, further, failed⟩
          exact ⟨b, .head step further, failed⟩

namespace Reads

variable {a b : Place}

/-- The model stays under construction, whatever declarations are read. -/
theorem building (reads : Reads r origin load a b) (steady : load.Steady)
    (start : a.model.Building a.state.set) :
    b.model.Building b.state.set ∧ b.model.name = a.model.name := by
  induction reads with
  | refl => exact ⟨start, rfl⟩
  | tail _ step ih =>
      cases step with
      | intro read =>
          obtain ⟨building, name⟩ := ih
          obtain ⟨_, building', name'⟩ := (declaration_declares steady building).ok read
          exact ⟨building', name'.trans name⟩

/-- All types that a model declares are registered while it is read, under names that were free when
the reading started. -/
theorem registers (reads : Reads r origin load a b) (steady : load.Steady)
    (start : a.model.Building a.state.set) (undeclared : a.model.named = []) :
    a.state.set.Progress (· ∈ b.model.named) b.state.set ∧
      ∀ t ∈ b.model.named, a.state.set.type? t.qname = none := by
  induction reads with
  | refl =>
      rw [undeclared]
      exact ⟨.refl start.wf, by simp⟩
  | tail front step ih =>
      cases step with
      | intro read =>
          obtain ⟨made, fresh⟩ := ih
          have building := (Reads.building front steady start).1
          obtain ⟨_, further, grows⟩ := (declaration_adds steady building.wf).ok read
          obtain ⟨_, building', _⟩ := (declaration_declares steady building).ok read
          obtain ⟨added, kept, new⟩ := grows.progress further.wellFormed building'.wf
          have before := (made.mono kept).trans (further.mono (fun _ => False.elim))
          refine ⟨before.trans added, fun t member => ?_⟩
          rcases new t member with old | free
          · exact fresh t old
          · exact before.setback.free start.wf free

end Reads

end Idl

end IdlGen
