import IdlGen.Idl.Document
import IdlGen.Proofs.Idl.Wp
import IdlGen.Proofs.Model.Containers

/-!
# What the grammar declares

Every rule of the grammar meets the contract `Declares`: it registers containers over registered
types, and types of the model that is being read. The type that a rule reads is registered when the
rule is done, and remains so while the rest of the declaration is read, since rules only add.
-/

namespace IdlGen

open LoadM

theorem Reader.take_eq_ok {r : Reader} {p : Token → Bool} {what : Expected} {toks : List Token}
    {q : Parsed toks Token} (h : r.take p what toks = .ok q) : p q.value = true := by
  cases toks with
  | nil => cases h
  | cons t rest =>
      simp only [take] at h
      split at h
      · cases h
        assumption
      · cases h

@[grind →]
theorem Reader.blame_eq_ok {α : Type} {r : Reader} {tok : Token} {x : Except ModelError α} {a : α}
    (h : r.blame tok x = .ok a) : x = .ok a := by
  cases x with
  | ok b => cases h; rfl
  | error e => cases h

@[grind →] theorem FieldSet.types_add {s s' : FieldSet Ty} {f : Field Ty} (h : s.add f = .ok s') :
    s'.types = s.types ++ [f.type] := by
  simp [types, fields_add h]

@[grind →] theorem Field.ofLiteral_type {id : Int} {name : String} {type : Ty} {required : Bool}
    {default : Option Literal} {annotations : Annotations} {docs : Docs} {f : Field Ty}
    (h : Field.ofLiteral id name type required default annotations docs = .ok f) :
    f.type = type := by
  unfold Field.ofLiteral at h
  cases default with
  | none =>
      cases h
      rfl
  | some lit =>
      obtain ⟨value, _, h⟩ := bind_eq_ok h
      cases h
      rfl

namespace Idl

variable {r : Reader} {m : Model} {declaring : Declaring} {σ : LoadState} {D : Ty → Prop}

theorem identifier_eq_ok {toks : List Token} {q : Parsed toks Token}
    (h : identifier r toks = .ok q) : Shape.isIdentifier q.value.text.toList = true := by
  have word := Reader.take_eq_ok h
  unfold isIdentifier at word
  exact (Bool.and_eq_true_iff.mp word).2

theorem namedType_holds {t : Token} {s : ModelSet} {ty : Ty} (wf : s.WellFormed)
    (h : namedType r m declaring t s = .ok ty) : s.Holds ty := by
  unfold namedType at h
  split at h
  · rename_i found
    cases h
    unfold Model.lookupType at found
    rcases Option.or_eq_some_iff.mp found with own | ⟨_, any⟩
    · exact wf.holds own
    · exact wf.holds any
  · repeat' split at h
    all_goals cases h

/-- A request over registered types goes on with a registered type. -/
theorem request_declares {α : Type} {c : Container} {f : Ty → LoadM α} {P : α → ModelSet → Prop}
    (wf : σ.set.WellFormed) (held : ∀ e ∈ c.elements, σ.set.Holds e)
    (next : ∀ t τ, τ.set.WellFormed → τ.set.Holds t → Declares D (f t) P τ) :
    Declares D (updateSet (fun s => c.request s) >>= f) P σ := by
  obtain ⟨progress, answer⟩ := Container.request_progress (D := D) wf held
  exact .updateSet_bind progress (next _ _ progress.wellFormed answer)

/-- A type expression gives a registered type, or `void` where that is allowed. -/
theorem typeExpr_declares {allowVoid : Bool} {toks : List Token} (wf : σ.set.WellFormed) :
    Declares D (typeExpr r m declaring allowVoid toks)
      (fun p s => s.Holds p.value ∨ allowVoid = true ∧ p.value = .void) σ := by
  induction h : toks.length using Nat.strongRecOn generalizing toks allowVoid σ with
  | ind length ih =>
      -- Inside of brackets, `void` is not allowed.
      have elem : ∀ {inside : List Token} {τ : LoadState}, inside.length < length →
          τ.set.WellFormed → Declares D (typeExpr r m declaring false inside)
            (fun p s => s.Holds p.value) τ := by
        intro inside τ shorter wf
        refine (ih inside.length shorter wf rfl).mono fun p s _ read => ?_
        exact read.resolve_right (by simp)
      unfold typeExpr
      split
      · exact .refuse wf
      · simp only [List.length_cons] at h
        split
        · exact .refuse wf
        · split
          · split
            · rename_i allowed
              exact .pure wf (.inr ⟨allowed, rfl⟩)
            · exact .refuse wf
          · exact .pure wf (.inl (wf.primitive _ (by decide)))
          · refine .lift_bind wf ?_
            rintro ⟨_, inside, _⟩ _
            refine .bind (elem (by omega) wf) ?_
            rintro ⟨e, _, _⟩ τ made held
            refine .lift_bind made.wellFormed ?_
            rintro ⟨_, _, _⟩ _
            exact request_declares (c := .list e) made.wellFormed (by simpa using held)
              fun _ _ wf held => .pure wf (.inl held)
          · refine .lift_bind wf ?_
            rintro ⟨_, inside, _⟩ _
            refine .bind (elem (by omega) wf) ?_
            rintro ⟨e, _, _⟩ τ made held
            refine .lift_bind made.wellFormed ?_
            rintro ⟨_, _, _⟩ _
            exact request_declares (c := .set e) made.wellFormed (by simpa using held)
              fun _ _ wf held => .pure wf (.inl held)
          · refine .lift_bind wf ?_
            rintro ⟨_, inside, _⟩ _
            refine .bind (elem (by omega) wf) ?_
            rintro ⟨k, _, _⟩ τ made key
            refine .lift_bind made.wellFormed ?_
            rintro ⟨_, afterComma, _⟩ _
            refine .bind (elem (by omega) made.wellFormed) ?_
            rintro ⟨v, _, _⟩ υ further value
            refine .lift_bind further.wellFormed ?_
            rintro ⟨_, _, _⟩ _
            have held : ∀ t ∈ [k, v], υ.set.Holds t := by simpa using ⟨further.holds key, value⟩
            exact request_declares (c := .map k v) further.wellFormed held
              fun _ _ wf held => .pure wf (.inl held)
          · refine .getSet_bind (.lift_bind wf fun ty found => ?_)
            exact .pure wf (.inl (namedType_holds wf found))

theorem field_declares {toks : List Token} (wf : σ.set.WellFormed) :
    Declares D (field r m declaring toks) (fun p s => s.Holds p.value.2.type) σ := by
  unfold field
  refine .lift_bind wf ?_
  rintro ⟨idToken, afterId, _⟩ _
  refine .lift_bind wf fun id _ => .lift_bind wf ?_
  rintro ⟨_, afterColon, _⟩ _
  refine .bind (typeExpr_declares wf) ?_
  rintro ⟨ty, afterType, _⟩ τ made read
  have held := read.resolve_right (by simp)
  have wf := made.wellFormed
  refine .lift_bind wf ?_
  rintro ⟨name, afterName, _⟩ _
  refine .getSet_bind (.lift_bind wf ?_)
  rintro ⟨default, afterDefault, _⟩ _
  refine .lift_bind wf ?_
  rintro ⟨notes, rest, _⟩ _
  refine .lift_bind wf fun f built => .pure wf ?_
  have type : f.type = ty := by grind
  exact type ▸ held

/-- Reading fields up to the closing mark, where all types read so far are registered. -/
theorem fieldsUntil_declares {close : String} {acc : FieldSet Ty} {toks : List Token}
    (wf : σ.set.WellFormed) (before : ∀ t ∈ acc.types, σ.set.Holds t) :
    Declares D (fieldsUntil r m declaring close acc toks)
      (fun p s => ∀ t ∈ p.value.types, s.Holds t) σ := by
  induction h : toks.length using Nat.strongRecOn generalizing toks acc σ with
  | ind length ih =>
      unfold fieldsUntil
      split
      · exact .pure wf before
      · refine .bind (field_declares wf) ?_
        rintro ⟨⟨idToken, f⟩, afterField, _⟩ τ made held
        refine .lift_bind made.wellFormed fun acc' added => ?_
        obtain ⟨next, _⟩ := skipSeparator afterField
        have after : ∀ t ∈ acc'.types, τ.set.Holds t := by
          rw [FieldSet.types_add (Reader.blame_eq_ok added)]
          intro t member
          rcases List.mem_append.mp member with old | last
          · exact made.holds (before t old)
          · exact List.mem_singleton.mp last ▸ held
        refine .bind (ih next.length (by omega) made.wellFormed after rfl) ?_
        rintro ⟨acc'', rest, _⟩ υ further held
        exact .pure further.wellFormed held

end Idl

end IdlGen
