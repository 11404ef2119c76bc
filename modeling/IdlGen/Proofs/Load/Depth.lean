import IdlGen.Proofs.Idl.Quiet
import IdlGen.Proofs.Load.Session
import Mathlib.Data.Finset.Card

/-!
# How deeply includes nest

Every include that is being loaded has made a model known that can be read from the tree and was
unknown before, so includes never nest more deeply than there are such models. A call therefore does
not depend on how includes are loaded below that depth: it never gets there.

Two loaders that agree on the states in which they are asked give the same runs. What those states
are follows from the contract of the grammar: progress from the state in which the file was opened.
-/

namespace IdlGen

open LoadM

namespace Idl

variable {r : Reader} {origin : SourceRef} {load load' : Loader} {m : Model} {toks : List Token}
variable {σ : LoadState}

theorem includeDecl_congr
    (agree : ∀ source τ, τ.set = σ.set → (load source).exec τ = (load' source).exec τ) :
    (includeDecl r origin load m toks).exec σ = (includeDecl r origin load' m toks).exec σ := by
  obtain ⟨out, same, _⟩ | ⟨source, n, p, _, _, _, asked⟩ := includeDecl_cases r origin m toks σ
  · rw [same, same]
  · rw [asked, asked, exec_bind, exec_bind,
      agree source { σ with log := σ.log ++ [.includes r.file source] } rfl]

theorem declaration_congr
    (agree : ∀ source τ, τ.set = σ.set → (load source).exec τ = (load' source).exec τ) :
    (declaration r origin load m toks).exec σ = (declaration r origin load' m toks).exec σ := by
  obtain isInclude | ⟨x, same, _⟩ := declaration_cases r origin m toks
  · rw [isInclude, isInclude]
    exact includeDecl_congr agree
  · rw [same, same]

/-- A file is read in the same way by loaders that agree while it is read. -/
theorem document_congr (steady : load.Steady) (building : m.Building σ.set)
    (agree : ∀ source τ, σ.set.Progress m.Own τ.set →
      (load source).exec τ = (load' source).exec τ) :
    (document r origin load m toks).exec σ = (document r origin load' m toks).exec σ := by
  induction h : toks.length using Nat.strongRecOn generalizing toks m σ with
  | ind length ih =>
      unfold document
      split
      · rfl
      · have here : ∀ source τ, τ.set = σ.set → (load source).exec τ = (load' source).exec τ :=
          fun source τ same => agree source τ (same.symm ▸ .refl building.wf)
        rw [exec_bind, exec_bind, ← declaration_congr here]
        split
        · rename_i parsed τ out
          obtain ⟨made, building', name⟩ := (declaration_declares steady building).ok out
          obtain ⟨m', afterDeclaration, _⟩ := parsed
          dsimp only
          obtain ⟨next, _⟩ := skipSeparator afterDeclaration
          have own : m'.Own = m.Own := funext fun t => congrArg (t.modelName? = ·) name
          refine ih next.length (by omega) building' (fun source υ further => ?_) rfl
          exact agree source υ (made.trans (own ▸ further))
        · rfl

end Idl

namespace Load

open Idl

variable {load load' bottom : Loader} {files : FileTree} {σ : LoadState}
variable {name text lexFile file : String} {origin source : SourceRef}

theorem parseInto_congr {m : Model} (steady : load.Steady) (building : m.Building σ.set)
    (agree : ∀ source τ, σ.set.Progress m.Own τ.set →
      (load source).exec τ = (load' source).exec τ) :
    (parseInto load m lexFile file text origin).exec σ =
      (parseInto load' m lexFile file text origin).exec σ := by
  unfold parseInto
  obtain ⟨e, failed⟩ | ⟨tokens, cut⟩ := eq_error_or_eq_ok (tokenizeFile .idl lexFile text)
  · rw [exec_lift_bind_error failed, exec_lift_bind_error failed]
  · rw [exec_lift_bind cut, exec_lift_bind cut]
    exact document_congr steady building agree

theorem parseWith_congr (steady : load.Steady) (wf : σ.set.WellFormed)
    (agree : ¬ σ.set.Knows name → ∀ source τ,
      (σ.set.reserve name).Progress (·.modelName? = some name) τ.set →
      (load source).exec τ = (load' source).exec τ) :
    (parseWith load name text origin).exec σ = (parseWith load' name text origin).exec σ := by
  have seen : getSet.exec σ = (.ok σ.set, σ) := rfl
  unfold parseWith
  rw [exec_bind_ok seen, exec_bind_ok seen]
  split
  · rfl
  · rename_i m s created
    obtain ⟨unknown, rfl, rfl⟩ := ModelSet.create_eq_ok_iff.mp created
    have reserved : (setSet (σ.set.reserve name)).exec σ =
        (.ok (), { σ with set := σ.set.reserve name }) := rfl
    rw [exec_bind_ok reserved, exec_bind_ok reserved, exec_tryCatch, exec_tryCatch, exec_bind,
      exec_bind, parseInto_congr (σ := { σ with set := σ.set.reserve name }) steady
        (building_reserve wf unknown) (agree unknown)]

/-- Loaders need to agree only while something is read that can be read. -/
theorem loadWith_congr (steady : load.Steady) (wf : σ.set.WellFormed)
    (agree : ∀ n ∈ files.modelNames, ¬ σ.set.Knows n → ∀ source τ,
      (σ.set.reserve n).Progress (·.modelName? = some n) τ.set →
      (load source).exec τ = (load' source).exec τ) :
    (loadWith load files source).exec σ = (loadWith load' files source).exec σ := by
  unfold loadWith
  split
  · rfl
  · rename_i n named
    obtain ⟨out, read, content⟩ := exec_readSource files source σ
    rw [exec_bind, exec_bind, read]
    cases out with
    | error e => rfl
    | ok text =>
        exact parseWith_congr (σ := { σ with log := σ.log ++ announces source }) steady wf
          (agree n (FileTree.mem_modelNames_of_text? content.symm named))

instance (s : ModelSet) : DecidablePred s.Knows := fun n =>
  inferInstanceAs (Decidable (s.isLoaded n = true ∨ s.isPending n = true))

/-- The models that could be read from the tree or its pages and are not known. -/
def unknown (files : FileTree) (s : ModelSet) : Finset String :=
  files.modelNames.toFinset.filter (¬ s.Knows ·)

theorem unknown_subset (files : FileTree) {s s' : ModelSet} {D : Ty → Prop}
    (h : s.Progress D s') :
    unknown files s' ⊆ unknown files s := by
  obtain ⟨_, advance, _⟩ := h
  exact Finset.monotone_filter_right _ fun n _ lost known =>
    lost (advance.knows known)

theorem unknown_reserve_ssubset {s : ModelSet} {n : String} (member : n ∈ files.modelNames)
    (new : ¬ s.Knows n) : unknown files (s.reserve n) ⊂ unknown files s := by
  have subset : unknown files (s.reserve n) ⊆ unknown files s :=
    Finset.monotone_filter_right _ fun k _ lost known => lost (by simp [known])
  refine Finset.ssubset_iff_subset_ne.mpr ⟨subset, fun same => ?_⟩
  have left : n ∈ unknown files (s.reserve n) :=
    same ▸ Finset.mem_filter.mpr ⟨List.mem_toFinset.mpr member, new⟩
  exact (Finset.mem_filter.mp left).2 (by simp)

/-- How many models can be read from a tree. -/
def readable (files : FileTree) : Nat := files.modelNames.toFinset.card

theorem card_unknown_le (files : FileTree) (s : ModelSet) :
    (unknown files s).card ≤ readable files :=
  Finset.card_filter_le _ _

theorem readable_lt_maxDepth (files : FileTree) : readable files < maxDepth files := by
  calc readable files
      ≤ files.modelNames.length := List.toFinset_card_le _
    _ ≤ files.nodes.length + files.pages.length := files.length_modelNames_le
    _ < maxDepth files := Nat.lt_succ_self _

/-- Loads included files, and leaves those that nest `depth` times deep to `bottom`. -/
def nest (files : FileTree) (bottom : Loader) : Nat → Loader
  | 0 => bottom
  | depth + 1 => fun source => do
    let _ ← loadWith (nest files bottom depth) files source

/-- At a depth that is greater than the number of unknown names, nothing is left to the bottom. -/
theorem exec_nest {depth more : Nat} (wf : σ.set.WellFormed)
    (few : (unknown files σ.set).card < depth) (le : depth ≤ more) :
    (nest files bottom more source).exec σ = (loadInclude files depth source).exec σ := by
  induction depth generalizing more source σ with
  | zero => exact absurd few (Nat.not_lt_zero _)
  | succ depth ih =>
      cases more with
      | zero => exact absurd le (Nat.not_succ_le_zero _)
      | succ more =>
          have same : (loadWith (loadInclude files depth) files source).exec σ =
              (loadWith (nest files bottom more) files source).exec σ := by
            refine loadWith_congr (loadInclude_steady depth) wf ?_
            intro n member new source' τ progress
            have fewer := Finset.card_lt_card (unknown_reserve_ssubset member new)
            have shrinks := Finset.card_le_card (unknown_subset files progress)
            exact (ih progress.wellFormed (by omega) (Nat.le_of_succ_le_succ le)).symm
          change (loadWith _ files source >>= fun _ => pure ()).exec σ =
            (loadWith _ files source >>= fun _ => pure ()).exec σ
          rw [exec_bind, exec_bind, same]

theorem loadInclude_eq_nest (depth : Nat) :
    loadInclude files depth = nest files (loadInclude files 0) depth := by
  induction depth with
  | zero => rfl
  | succ depth ih =>
      funext source
      rw [nest, ← ih]
      rfl

/-- What is done at the depth `readable` does not matter, and neither does a greater depth. -/
theorem exec_nest_eq_loader {depth : Nat} (wf : σ.set.WellFormed)
    (enough : readable files < depth) :
    (nest files bottom depth source).exec σ = (loader files source).exec σ := by
  have few : (unknown files σ.set).card < readable files + 1 :=
    Nat.lt_succ_of_le (card_unknown_le files σ.set)
  rw [loader, loadInclude_eq_nest (maxDepth files), exec_nest wf few enough,
    exec_nest wf few (readable_lt_maxDepth files)]

end Load

namespace Session

open Idl

variable {load load' : Loader} {files : FileTree} {call : Call} {σ : LoadState}

theorem Call.runWith_congr (steady : load.Steady) (wf : σ.set.WellFormed)
    (agree : ∀ source τ, τ.set.WellFormed → (load source).exec τ = (load' source).exec τ) :
    (call.runWith files load).exec σ = (call.runWith files load').exec σ := by
  cases call with
  | parse name text origin =>
      exact Load.parseWith_congr steady wf fun _ source τ progress =>
        agree source τ progress.wellFormed
  | load source =>
      exact Load.loadWith_congr steady wf fun _ _ _ source τ progress =>
        agree source τ progress.wellFormed
  | anonymous text origin =>
      have building : Model.Building { name := none } σ.set := Load.building_nil wf nofun
      have here : ∀ source τ, σ.set.Progress (Model.Own { name := none }) τ.set →
          (load source).exec τ = (load' source).exec τ :=
        fun source τ progress => agree source τ progress.wellFormed
      unfold Call.runWith Load.parseAnonymousWith
      rw [exec_bind, exec_bind, Load.parseInto_congr steady building here]

/-- However includes are loaded that nest more deeply than there are models to be read, a call does
the same. -/
theorem Call.exec_runWith_nest {bottom : Loader} {depth : Nat} (wf : σ.set.WellFormed)
    (enough : Load.readable files < depth) :
    (call.runWith files (Load.nest files bottom depth)).exec σ =
      (call.run files (Load.maxDepth files)).exec σ :=
  (runWith_congr (Load.loadInclude_steady _) wf fun _ _ wf =>
    (Load.exec_nest_eq_loader wf enough).symm).symm

end Session

end IdlGen
