import IdlGen.Load
import IdlGen.Proofs.Idl.Declarations

/-!
# What loading leaves behind

A load that succeeds makes progress. A load that fails leaves a setback, after which its own model
is as unknown as it was before. Since includes are loaded in the same way with one level of nesting
less, the loader of every depth is steady.
-/

namespace IdlGen.Load

open Idl LoadM

variable {load : Loader} {files : FileTree} {m : Model} {σ : LoadState}
variable {name lexFile file text : String} {origin source : SourceRef}

theorem parseInto_declares (steady : load.Steady) (building : m.Building σ.set) :
    Declares m.Own (parseInto load m lexFile file text origin)
      (fun m' s => m'.Building s ∧ m'.name = m.name) σ :=
  .lift_bind building.wf fun _ _ => document_declares steady building

/-- A model starts without declarations. -/
theorem building_nil {name? : Option String} {s : ModelSet} (wf : s.WellFormed)
    (pending : ∀ n, name? = some n → s.isPending n = true) :
    Model.Building { name := name? } s where
  wf := wf
  pending := pending
  sound := ⟨nofun, nofun⟩

theorem building_reserve {s : ModelSet} (wf : s.WellFormed) (unknown : ¬ s.Knows name) :
    Model.Building { name := some name } (s.reserve name) :=
  building_nil (wf.reserve unknown) fun _ same => by simp [Option.some.inj same]

/-- What is left when the load of a model is over. A failed load does not make its model known. -/
def Leaves (name? : Option String) (x : LoadM Model) (σ : LoadState) : Prop :=
  x.WP (fun _ τ => σ.set.Progress (fun _ => False) τ.set)
    (fun _ τ => σ.set.Setback (fun _ => False) τ.set ∧
      ∀ n, name? = some n → ¬ σ.set.Knows n → ¬ τ.set.Knows n) σ

theorem Leaves.declares {name? : Option String} {x : LoadM Model} (h : Leaves name? x σ) :
    Declares (fun _ => False) x (fun _ _ => True) σ :=
  WP.mono h (fun _ _ progress => ⟨progress, trivial⟩) fun _ _ left => left.1

theorem parseWith_leaves (steady : load.Steady) (wf : σ.set.WellFormed) :
    Leaves (some name) (parseWith load name text origin) σ := by
  unfold Leaves parseWith
  simp only [WP.bind_iff, WP.getSet_iff]
  split
  · exact ⟨(ModelSet.Progress.refl wf).setback, fun _ _ => id⟩
  · rename_i m s created
    obtain ⟨unknown, rfl, rfl⟩ := ModelSet.create_eq_ok_iff.mp created
    have building : Model.Building { name := some name } (σ.set.reserve name) :=
      building_reserve wf unknown
    simp only [WP.bind_iff, WP.setSet_iff, WP.tryCatch_iff, WP.updateSet_iff, WP.tell_iff,
      WP.pure_iff, WP.throw_iff]
    refine WP.mono (parseInto_declares (σ := ⟨σ.set.reserve name, σ.log⟩) steady building) ?_ ?_
    · rintro m τ ⟨progress, building', name'⟩
      exact progress.finish unknown name' building'.sound
    · intro e τ setback
      obtain ⟨left, unknown'⟩ := setback.abandon wf unknown
      refine ⟨left, ?_⟩
      rintro n ⟨⟩ _
      exact unknown'

theorem loadWith_leaves (steady : load.Steady) (wf : σ.set.WellFormed) :
    Leaves source.modelName? (loadWith load files source) σ := by
  have unchanged := (ModelSet.Progress.refl (D := fun _ => False) wf).setback
  unfold Leaves loadWith
  split
  · exact ⟨unchanged, fun _ _ => id⟩
  · rename_i name named
    rw [named]
    refine WP.bind_iff.mpr (readSource_wp (fun text τ same => ?_) fun e τ same => ?_)
    · have left : Leaves (some name) (parseWith load name text source) τ :=
        parseWith_leaves steady (same ▸ wf)
      unfold Leaves at left
      rwa [same] at left
    · rw [same]
      exact ⟨unchanged, fun _ _ => id⟩

theorem parseAnonymousWith_declares (steady : load.Steady) (wf : σ.set.WellFormed) :
    Declares (·.modelName? = none) (parseAnonymousWith load text origin) (fun _ _ => True) σ := by
  have building : Model.Building { name := none } σ.set := building_nil wf nofun
  refine .bind (parseInto_declares steady building) fun m τ made ⟨_, name⟩ => ?_
  have unchanged : τ.set.Progress (·.modelName? = none) (τ.set.finish m) := by
    rw [ModelSet.finish_anonymous name]
    exact .refl made.wellFormed
  exact .updateSet_bind unchanged (.pure unchanged.wellFormed trivial)

/-- Including files makes progress, however deep they may nest. -/
theorem loadInclude_steady (depth : Nat) : (loadInclude files depth).Steady := by
  induction depth with
  | zero =>
      intro source σ wf
      have same : ∀ {τ : LoadState}, τ.set = σ.set → σ.set.Setback (fun _ => False) τ.set := by
        intro τ same
        rw [same]
        exact (ModelSet.Progress.refl wf).setback
      exact WP.bind_iff.mpr (readSource_wp (fun _ _ => same) fun _ _ => same)
  | succ depth ih =>
      intro source σ wf
      refine .bind (loadWith_leaves ih wf).declares fun _ _ made _ => .pure made.wellFormed trivial

end IdlGen.Load
