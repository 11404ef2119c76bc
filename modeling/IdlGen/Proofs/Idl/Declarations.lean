import IdlGen.Proofs.Idl.Grammar
import IdlGen.Proofs.Model.Building

/-!
# What declarations add

Each declaration takes a model that is being built to another one, of the same name, that is still
being built. An include does so for every loader that makes progress on its own.
-/

namespace IdlGen

open LoadM

@[grind →]
theorem Constant.ofLiteral_type {model : Option String} {name : String} {type : Ty} {lit : Literal}
    {docs : Docs} {c : Constant} (h : Constant.ofLiteral model name type lit docs = .ok c) :
    c.type = type := by
  obtain ⟨_, _, h⟩ := bind_eq_ok h
  cases h
  rfl

namespace Idl

variable {r : Reader} {m : Model} {σ : LoadState} {toks : List Token}

/-- The model that a rule gives is still being built, under the same name. -/
def Continues (m : Model) (p : Parsed toks Model) (s : ModelSet) : Prop :=
  p.value.Building s ∧ p.value.name = m.name

theorem namespaceDecl_continues {p : Parsed toks Model} (building : m.Building σ.set)
    (h : namespaceDecl r m toks = .ok p) : Continues m p σ.set := by
  obtain ⟨keyword, _, h⟩ := bind_eq_ok h
  obtain ⟨generator, _, h⟩ := bind_eq_ok h
  obtain ⟨name, _, h⟩ := bind_eq_ok h
  obtain ⟨m', added, h⟩ := bind_eq_ok h
  cases h
  exact Model.addNamespace_building building (Reader.blame_eq_ok added)

theorem constDecl_declares (building : m.Building σ.set) :
    Declares m.Own (constDecl r m toks) (Continues m) σ := by
  have wf := building.wf
  unfold constDecl
  refine .lift_bind wf fun keyword _ => ?_
  refine .bind (typeExpr_declares wf) fun ty τ made read => ?_
  have held := read.resolve_right (by simp)
  have wf := made.wellFormed
  refine .lift_bind wf fun name _ => .lift_bind wf fun equals _ => .getSet_bind ?_
  refine .lift_bind wf fun lit _ => .lift_bind wf fun c built => ?_
  refine .lift_bind wf fun m' added => .pure wf ?_
  have type : c.type = ty.value := by grind
  exact Model.addConst_building (building.mono made) (type ▸ held) (Reader.blame_eq_ok added)

theorem enumDecl_declares (building : m.Building σ.set) :
    Declares m.Own (enumDecl r m toks) (Continues m) σ := by
  have wf := building.wf
  unfold enumDecl
  refine .lift_bind wf ?_
  rintro ⟨keyword, atName, _⟩ _
  refine .lift_bind wf ?_
  rintro ⟨name, afterName, _⟩ isName
  have made : σ.set.Progress m.Own (σ.set.newEnum (m.qname name.text) keyword.docs).2 :=
    .takeStamp wf
  refine .updateSet_bind made ?_
  have wf := made.wellFormed
  refine .lift_bind wf ?_
  rintro ⟨_, inside, _⟩ _
  refine .lift_bind wf ?_
  rintro ⟨b, afterBody, _⟩ _
  refine .lift_bind wf ?_
  rintro ⟨_, rest, _⟩ _
  refine .getSet_bind (.lift_bind wf ?_)
  rintro ⟨t, m', s⟩ added
  obtain ⟨further, continues⟩ :=
    Model.addEnum_building (building.mono made) (identifier_eq_ok isName)
      (Reader.blame_eq_ok added)
  exact .setSet_bind further (.pure further.wellFormed continues)

theorem recordDecl_declares {kind : RecordKind} (building : m.Building σ.set) :
    Declares m.Own (recordDecl r m kind toks) (Continues m) σ := by
  have wf := building.wf
  unfold recordDecl
  refine .lift_bind wf ?_
  rintro ⟨keyword, atName, _⟩ _
  refine .lift_bind wf ?_
  rintro ⟨name, afterName, _⟩ isName
  refine .lift_bind wf ?_
  rintro ⟨_, inside, _⟩ _
  refine .bind (fieldsUntil_declares wf (by simp [FieldSet.types])) ?_
  rintro ⟨fields, afterBody, _⟩ τ made held
  have wf := made.wellFormed
  refine .lift_bind wf ?_
  rintro ⟨notes, rest, _⟩ _
  refine .getSet_bind (.lift_bind wf ?_)
  rintro ⟨t, m', s⟩ added
  obtain ⟨further, continues⟩ :=
    Model.addRecord_building (building.mono made) (identifier_eq_ok isName) held
      (Reader.blame_eq_ok added)
  exact .setSet_bind further (.pure further.wellFormed continues)

theorem throwsClause_declares {owner : String} {D : Ty → Prop} (wf : σ.set.WellFormed) :
    Declares D (throwsClause r m owner toks) (fun p s => ∀ t ∈ p.value.types, s.Holds t) σ := by
  have none : ∀ t ∈ FieldSet.types ⟨owner, []⟩, σ.set.Holds t := by simp [FieldSet.types]
  unfold throwsClause
  split
  · exact .pure wf none
  · refine .lift_bind wf fun inside _ => ?_
    exact .bind (fieldsUntil_declares wf none) fun fields τ made held => .pure made.wellFormed held

/-- The types of a function are registered, if they are not `void`. -/
theorem function_declares {service : String} {D : Ty → Prop} (wf : σ.set.WellFormed) :
    Declares D (function r m service toks)
      (fun p s => ∀ t ∈ p.value.2.types, t ≠ .void → s.Holds t) σ := by
  unfold function
  split
  rename_i oneway atResult _ _
  refine .bind (typeExpr_declares wf) ?_
  rintro ⟨result, afterResult, _⟩ τ made read
  have wf := made.wellFormed
  refine .lift_bind wf ?_
  rintro ⟨name, afterName, _⟩ _
  dsimp only
  split
  · exact .refuse_bind wf
  · refine .lift_bind wf ?_
    rintro ⟨_, inside, _⟩ _
    refine .bind (fieldsUntil_declares wf (by simp [FieldSet.types])) ?_
    rintro ⟨args, afterArgs, _⟩ υ madeArgs heldArgs
    refine .bind (throwsClause_declares madeArgs.wellFormed) ?_
    rintro ⟨throws, afterThrows, _⟩ ω madeThrows heldThrows
    have wf := madeThrows.wellFormed
    have held : ∀ t ∈ result :: (args.types ++ throws.types), t ≠ .void → ω.set.Holds t := by
      intro t member visible
      rcases List.mem_cons.mp member with rfl | member
      · exact madeThrows.holds (madeArgs.holds (read.resolve_right fun void => visible void.2))
      · rcases List.mem_append.mp member with arg | thrown
        · exact madeThrows.holds (heldArgs t arg)
        · exact heldThrows t thrown
    dsimp only
    split
    · exact .refuse_bind wf
    · refine .lift_bind wf ?_
      rintro ⟨_, rest, _⟩ _
      exact .pure wf held

theorem functions_declares {body : ServiceBody} {D : Ty → Prop} (wf : σ.set.WellFormed)
    (before : ∀ f ∈ body.functions, ∀ t ∈ f.types, t ≠ .void → σ.set.Holds t) :
    Declares D (functions r m body toks)
      (fun p s => ∀ f ∈ p.value.functions, ∀ t ∈ f.types, t ≠ .void → s.Holds t) σ := by
  induction h : toks.length using Nat.strongRecOn generalizing toks body σ with
  | ind length ih =>
      unfold functions
      split
      · exact .pure wf before
      · refine .bind (function_declares wf) ?_
        rintro ⟨⟨name, f⟩, afterFunction, _⟩ τ made held
        refine .lift_bind made.wellFormed fun body' added => ?_
        obtain ⟨next, _⟩ := skipSeparator afterFunction
        have after : ∀ g ∈ body'.functions, ∀ t ∈ g.types, t ≠ .void → τ.set.Holds t := by
          intro g member t used visible
          rw [ServiceBody.functions_addFunction (Reader.blame_eq_ok added)] at member
          rcases List.mem_append.mp member with old | last
          · exact made.holds (before g old t used visible)
          · exact held t (List.mem_singleton.mp last ▸ used) visible
        refine .bind (ih next.length (by omega) made.wellFormed after rfl) ?_
        rintro ⟨body'', rest, _⟩ υ further held
        exact .pure further.wellFormed held

theorem serviceDecl_declares (building : m.Building σ.set) :
    Declares m.Own (serviceDecl r m toks) (Continues m) σ := by
  have wf := building.wf
  unfold serviceDecl
  refine .lift_bind wf ?_
  rintro ⟨keyword, atName, _⟩ _
  refine .lift_bind wf ?_
  rintro ⟨name, afterName, _⟩ _
  refine .getSet_bind (.lift_bind wf ?_)
  rintro ⟨parent, afterParent, _⟩ _
  refine .lift_bind wf ?_
  rintro ⟨_, inside, _⟩ _
  refine .bind (functions_declares wf (by simp)) ?_
  rintro ⟨body, afterBody, _⟩ τ made held
  have wf := made.wellFormed
  refine .lift_bind wf ?_
  rintro ⟨_, rest, _⟩ _
  refine .getSet_bind (.lift_bind wf fun m' added => ?_)
  refine .pure wf (Model.addService_building (building.mono made) ?_ (Reader.blame_eq_ok added))
  rwa [Service.body_make]

/-- A loader that makes progress, or else leaves no more than a setback behind. -/
def Loader.Steady (load : Loader) : Prop :=
  ∀ source σ, σ.set.WellFormed → Declares (fun _ => False) (load source) (fun _ _ => True) σ

variable {origin : SourceRef} {load : Loader}

theorem includeDecl_declares (steady : load.Steady) (building : m.Building σ.set) :
    Declares m.Own (includeDecl r origin load m toks) (Continues m) σ := by
  have wf := building.wf
  unfold includeDecl
  refine .lift_bind wf fun keyword _ => .lift_bind wf fun pathToken _ => ?_
  refine .lift_bind wf fun path _ => ?_
  dsimp only
  split
  · exact .refuse wf
  · refine .getSet_bind ?_
    split
    · exact .refuse_bind wf
    · split
      · have loaded := steady (origin.parent.child path)
          { σ with log := σ.log ++ [.includes r.file (origin.parent.child path)] } wf
        refine .tell_bind (.bind (loaded.widen nofun) fun _ τ made _ => ?_)
        exact .pure made.wellFormed (Model.addInclude_building (building.mono made))
      · exact .pure wf (Model.addInclude_building building)

theorem declaration_declares (steady : load.Steady) (building : m.Building σ.set) :
    Declares m.Own (declaration r origin load m toks) (Continues m) σ := by
  have wf := building.wf
  unfold declaration
  dsimp only
  split
  · exact .refuse wf
  · split
    · exact includeDecl_declares steady building
    · exact .lift wf fun p read => namespaceDecl_continues building read
    · exact constDecl_declares building
    · exact enumDecl_declares building
    · exact recordDecl_declares building
    · exact recordDecl_declares building
    · exact recordDecl_declares building
    · exact serviceDecl_declares building
    · exact .refuse wf

/-- A file that is read to its end leaves a model that is ready to be finished. -/
theorem document_declares (steady : load.Steady) (building : m.Building σ.set) :
    Declares m.Own (document r origin load m toks)
      (fun m' s => m'.Building s ∧ m'.name = m.name) σ := by
  induction h : toks.length using Nat.strongRecOn generalizing toks m σ with
  | ind length ih =>
      unfold document
      split
      · exact .pure building.wf ⟨building, rfl⟩
      · refine .bind (declaration_declares steady building) ?_
        rintro ⟨m', afterDeclaration, _⟩ τ made ⟨building', name⟩
        dsimp only
        obtain ⟨next, _⟩ := skipSeparator afterDeclaration
        have rest := ih next.length (by omega) building' rfl
        have own : m'.Own = m.Own := funext fun t => congrArg (t.modelName? = ·) name
        rw [own, name] at rest
        exact rest

end Idl

end IdlGen
