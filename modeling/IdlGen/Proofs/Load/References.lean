import IdlGen.Proofs.Load.Session

/-!
# References of loaded models

A model that is included is finished before the model that includes it, and may use types of that
other model by then. If the call fails in the end, those types are taken out of the registry while
the finished model stays with its references to them. So a reference of a loaded model is valid
exactly if the call that loaded the model has also loaded all owners of the type, and it never
changes from then on.
-/

namespace IdlGen.Session

open LoadM

variable {s s' s₀ s₁ : ModelSet} {m : Model} {t : Ty}

/-- A call from `s₀` to `s₁` loaded the model, for itself or on the way. -/
def Loads (m : Model) (s₀ s₁ : ModelSet) : Prop :=
  ∃ files depth call log, s₁ = ((Call.run files depth call).exec ⟨s₀, log⟩).2.set ∧
    m ∈ s₁.models.drop s₀.models.length

theorem Leads.wellFormed (leads : Leads s s') (wf : s.WellFormed) : s'.WellFormed := by
  induction leads with
  | refl => exact wf
  | tail _ step ih => exact (step.setback ih).wellFormed

theorem Leads.evolves (leads : Leads s s') (wf : s.WellFormed) : s.Evolves s' := by
  induction leads with
  | refl => exact .refl s
  | tail front step ih =>
      exact ih.trans wf (.of_setback (step.setback (Leads.wellFormed front wf)))

theorem Leads.holds (leads : Leads s s') (wf : s.WellFormed) (held : s.Holds t) : s'.Holds t := by
  induction leads with
  | refl => exact held
  | tail front step ih => exact (step.setback (Leads.wellFormed front wf)).holds ih

/-- Between two steps no model is being built. -/
theorem Leads.pending (leads : Leads .empty s) : s.pending = [] := by
  induction leads with
  | refl => rfl
  | tail front step ih => exact (step.setback (Leads.wellFormed front .empty)).pending.trans ih

/-- A type that was made before stays what it is to the registry: there or gone. -/
theorem Leads.holds_iff (leads : Leads s s') (wf : s.WellFormed)
    (stamped : ∀ k, t.stamp? = some k → k < s.stamps.next) : s'.Holds t ↔ s.Holds t := by
  refine ⟨fun held => Classical.byContradiction fun lost => ?_, leads.holds wf⟩
  obtain ⟨k, stamp, late⟩ := (leads.evolves wf).stamp held lost
  exact absurd (stamped k stamp) (Nat.not_lt.mpr late)

/-- Every loaded model was loaded by one of the calls. -/
theorem Leads.loads (leads : Leads .empty s) (member : m ∈ s.models) :
    ∃ s₀ s₁, Leads .empty s₀ ∧ Loads m s₀ s₁ ∧ Leads s₁ s := by
  induction leads with
  | refl => cases member
  | @tail s s' front step ih =>
      rcases (step.setback (Leads.wellFormed front .empty)).mem_models member with old | new
      · obtain ⟨s₀, s₁, before, loads, after⟩ := ih old
        exact ⟨s₀, s₁, before, loads, after.tail step⟩
      · cases step with
        | call files depth call log =>
            exact ⟨s, _, front, ⟨files, depth, call, log, rfl, new⟩, .refl⟩
        | request held => simp at new

/-- Every loaded model was loaded by one of the calls. Of the types it mentions, the registry holds
exactly those for which all owners were loaded when that call ended. -/
theorem holds_mentioned_iff (session : Leads .empty s) (member : m ∈ s.models) :
    (∃ s₀ s₁, Leads .empty s₀ ∧ Loads m s₀ s₁ ∧ Leads s₁ s) ∧
      ∀ s₀ s₁, Leads .empty s₀ → Loads m s₀ s₁ → Leads s₁ s →
        ∀ t ∈ m.mentions, t ≠ .void →
          (s.type? t.qname = some t ↔
            ∀ p ∈ t.parts, ∀ n, p.modelName? = some n → s₁.isLoaded n = true) := by
  refine ⟨session.loads member, ?_⟩
  rintro s₀ s₁ before ⟨files, depth, call, log, ended, new⟩ after t mentioned visible
  have step : Step s₀ s₁ := ended ▸ .call s₀ files depth call log
  have wf₀ := before.wellFormed .empty
  have grown := step.setback wf₀
  obtain ⟨stamped, held_iff⟩ := grown.settled new t mentioned visible
  have knows_iff : ∀ n, s₁.Knows n ↔ s₁.isLoaded n = true := by
    intro n
    have idle : s₁.pending = [] := grown.pending.trans before.pending
    simp [ModelSet.Knows, ModelSet.isPending, idle]
  change s.Holds t ↔ _
  rw [after.holds_iff grown.wellFormed stamped, held_iff]
  simp only [knows_iff, Ty.ownedBy_iff]
  constructor
  · intro loaded p part n declares
    exact loaded n ⟨p, part, declares⟩
  · rintro loaded n ⟨p, part, declares⟩
    exact loaded p part n declares

/-- An included model uses a struct of the model that includes it, which fails afterwards. -/
theorem mentioned_lost_of_failed_include :
    let files := (FileTree.empty []).place ["inc.thrift"]
      (.file (.text "struct T \x7b 1: m.S s \x7d"))
    let call := Call.parse "m"
      "struct S \x7b 1: i32 a \x7d include \"inc.thrift\" struct \x7b" .nowhere
    let s := ((call.run files (Load.maxDepth files)).exec {}).2.set
    Leads .empty s ∧ s.isLoaded "inc" = true ∧ s.isLoaded "m" = false ∧
      ∃ m ∈ s.models, ∃ t ∈ m.mentions, t ≠ .void ∧ s.type? t.qname ≠ some t := by
  intro files call s
  have session : Leads .empty s := .single (.call _ files _ call [])
  have lost : s.isLoaded "m" = false := by decide +kernel
  have mentions : (s.models.any fun m => m.mentions.any (·.modelName? = some "m")) = true := by
    decide +kernel
  refine ⟨session, by decide +kernel, lost, ?_⟩
  obtain ⟨m, member, mentions⟩ := List.any_eq_true.mp mentions
  obtain ⟨t, mentioned, owned⟩ := List.any_eq_true.mp mentions
  have owner : t.modelName? = some "m" := of_decide_eq_true owned
  have loads : Loads m .empty s := ⟨files, _, call, [], rfl, member⟩
  have visible : t ≠ .void := by
    rintro rfl
    cases owner
  have valid_iff := (holds_mentioned_iff session member).2 _ _ .refl loads .refl t mentioned visible
  refine ⟨m, member, t, mentioned, visible, fun valid => ?_⟩
  have loaded := valid_iff.mp valid t t.self_mem_parts "m" owner
  exact Bool.eq_false_iff.mp lost loaded

end IdlGen.Session
