import IdlGen.Proofs.Load.Anonymous
import IdlGen.Proofs.Load.Lockstep

/-!
# Who sees a text without a model name

No model can include a model without a name. Still the types that it declares are in the registry,
under their bare names, and a later model that looks up such a name finds them. That is the only way
in which the text can be seen. To show this, the later call is run twice, in the set before the text
and in the set after it: both runs end alike, unless the first one stops at the name of a type that
the text has declared.

Types are told apart by stamps, and the set before the text is only known by the session that leads
to it. So the first part of the proof is that a session can be run beside itself.
-/

namespace IdlGen

open Idl LoadM

/-- The set is alike to itself, without extra types. -/
def Twin.Mirrors (R : Pairing) (s : ModelSet) : Prop :=
  Twin.Alike (fun _ => False) (fun _ => True) ⟨R, s, s⟩

/-- The type is in the set, or a text without a model name can bring it there. -/
def ModelSet.OldOrForeign (s : ModelSet) (t : Ty) : Prop := s.Holds t ∨ t.Foreign

namespace Twin.Mirrors

variable {R : Pairing} {s : ModelSet} {t : Ty}

theorem setting (model : Option String) :
    Twin.Setting (fun _ => False) (fun _ => True) model where
  foreign := False.elim
  apart _ _ := id
  declared _ _ := trivial
  container _ := trivial

theorem empty : Twin.Mirrors (fun _ _ => False) .empty where
  wf := .empty
  wf' := .empty
  one := by
    intro _ _ _ _ paired
    exact paired.elim
  below := False.elim
  models := .nil
  pending := rfl
  known := by
    intro k t found
    have held := ModelSet.WellFormed.empty.holds found
    cases t with
    | prim p => exact ⟨_, found, .prim p⟩
    | list | set | map | enum | record =>
        exact absurd (ModelSet.WellFormed.empty.stamped held rfl) (Nat.not_lt_zero _)
  extra found missing := by
    rw [found] at missing
    cases missing
  all _ := trivial

theorem like (mirrors : Twin.Mirrors R s) (held : s.Holds t) : t.Like R t := by
  obtain ⟨t', found, like⟩ := mirrors.known held
  cases found.symm.trans held
  exact like

theorem oldOrForeign (mirrors : Twin.Mirrors R s) :
    Twin.Alike (fun _ => False) s.OldOrForeign ⟨R, s, s⟩ :=
  { mirrors with all := fun found => .inl (mirrors.wf.holds found) }

/-- All that a text without a model name brings is foreign. -/
theorem setting_oldOrForeign : Twin.Setting (fun _ => False) s.OldOrForeign none where
  foreign := False.elim
  apart _ _ := id
  declared isNamed owner := .inr ⟨owner, by simp [Ty.elements_eq_nil_of_isNamed isNamed]⟩
  container spelt :=
    .inr ⟨Ty.modelName?_eq_none_of_not_isNamed Container.make_isNamed, by simpa using spelt⟩

/-- What is done in a set, beside itself, leads to a set that is alike to itself. -/
theorem run {α : Type} {x : LoadM α} {Q : α → α → Twin → Prop} {log : List LoadEvent}
    (runs : Parallel (fun _ => False) (fun _ => True) x x Q ⟨R, s, s⟩) :
    ∃ R', Twin.Mirrors R' (x.exec ⟨s, log⟩).2.set := by
  have ends := runs ⟨s, log⟩ ⟨s, log⟩ rfl rfl
  generalize x.exec ⟨s, log⟩ = out at ends
  cases ends with
  | ok _ alike _ => exact ⟨_, alike⟩
  | error _ _ alike => exact ⟨_, alike⟩
  | leak leaks =>
      obtain ⟨_, _, _, none, _⟩ := leaks
      exact none.elim

theorem request {c : Container} (mirrors : Twin.Mirrors R s)
    (held : ∀ e ∈ c.elements, s.Holds e) : ∃ R', Twin.Mirrors R' (c.request s).2 := by
  have wf := (Container.request_progress (D := fun _ => False) mirrors.wf held).1.wellFormed
  rcases c.request_cases s with ⟨known, _, result⟩ | ⟨free, result⟩
  · rw [result]
    exact ⟨R, mirrors⟩
  · rw [result] at wf ⊢
    have pairs : c.Pairwise (Ty.Like R) c := .self fun e inside => mirrors.like (held e inside)
    have like : (c.make s.stamps.next).Like (R.insert s.stamps.next s.stamps.next)
        (c.make s.stamps.next) :=
      pairs.make (fun _ _ like => like.mono (Pairing.wider_insert _ _ _))
        (Pairing.insert_self _ _ _)
    exact ⟨_, Twin.Alike.add mirrors like free free wf wf trivial⟩

end Twin.Mirrors

namespace Session

variable {s : ModelSet}

theorem Call.mirrors {R : Pairing} {files : FileTree} {depth : Nat} {call : Call}
    {log : List LoadEvent} (mirrors : Twin.Mirrors R s) :
    ∃ R', Twin.Mirrors R' ((call.run files depth).exec ⟨s, log⟩).2.set := by
  have settings := Twin.Mirrors.setting
  have steady : (Load.loadInclude files depth).Steady := Load.loadInclude_steady depth
  have loaders : (Load.loadInclude files depth).Parallel _ _ (Load.loadInclude files depth) :=
    Load.loadInclude_parallel (fun n => settings (some n)) depth
  cases call with
  | parse name text origin =>
      exact Twin.Mirrors.run (Load.parseWith_parallel steady steady loaders (settings _) mirrors)
  | load source =>
      exact Twin.Mirrors.run
        (Load.loadWith_parallel steady steady loaders (fun n => settings (some n)) mirrors)
  | anonymous text origin =>
      exact Twin.Mirrors.run
        (Load.parseAnonymousWith_parallel steady steady loaders (settings _) mirrors)

theorem Leads.mirrors (session : Leads .empty s) : ∃ R, Twin.Mirrors R s := by
  induction session with
  | refl => exact ⟨_, .empty⟩
  | tail _ step ih =>
      obtain ⟨R, mirrors⟩ := ih
      cases step with
      | call files depth call log => exact Call.mirrors mirrors
      | request held => exact mirrors.request held

end Session

@[simp] theorem Model.addInclude_includes_ne_nil (m : Model) (name : String) :
    (m.addInclude name).includes ≠ [] := by
  unfold Model.addInclude
  split
  · rename_i listed
    intro none
    rw [none] at listed
    cases listed
  · simp

namespace Idl

variable {r : Reader} {origin : SourceRef} {m m' : Model} {toks : List Token} {σ τ : LoadState}

/-- A declaration that leaves a model without includes has used no loader. -/
theorem declaration_without_includes {load : Loader} {p : Parsed toks Model}
    (run : (declaration r origin load m toks).exec σ = (.ok p, τ)) (alone : p.value.includes = []) :
    m.includes = [] ∧ Still σ τ ∧
      ∀ load', (declaration r origin load' m toks).exec σ = (.ok p, τ) := by
  have impossible {n : String} (included : p.value = m.addInclude n) : False :=
    m.addInclude_includes_ne_nil n (included ▸ alone)
  rcases declaration_cases r origin m toks with isInclude | ⟨x, same, quiet⟩
  · rw [isInclude] at run
    rcases includeDecl_cases r origin m toks σ with ⟨out, runs, known⟩ | ⟨_, _, q, _, _, new, runs⟩
    · rw [runs] at run
      cases run
      obtain ⟨_, _, included⟩ := known p rfl
      exact (impossible included).elim
    · rw [runs, exec_bind] at run
      generalize LoadM.exec _ _ = loaded at run
      obtain ⟨_ | _, _⟩ := loaded <;> cases run
      exact (impossible new).elim
  · rw [same] at run
    obtain ⟨still, includes⟩ := (quiet σ).ok run
    exact ⟨includes ▸ alone, still, fun load' => by rw [same, run]⟩

/-- The same holds of a whole file. -/
theorem document_without_includes {load : Loader}
    (run : (document r origin load m toks).exec σ = (.ok m', τ)) (alone : m'.includes = []) :
    m.includes = [] ∧ Still σ τ ∧
      ∀ load', (document r origin load' m toks).exec σ = (.ok m', τ) := by
  induction length : toks.length using Nat.strongRecOn generalizing toks m σ with
  | ind length ih =>
      cases toks with
      | nil =>
          unfold document at run
          cases run
          refine ⟨alone, .refl _, fun load' => ?_⟩
          unfold document
          rfl
      | cons t rest =>
          unfold document at run
          rw [exec_bind] at run
          generalize first : LoadM.exec _ σ = out at run
          obtain ⟨_ | ⟨m₁, after, _⟩, σ₁⟩ := out
          · cases run
          · dsimp only at run
            have separated := (skipSeparator after).2
            obtain ⟨alone₁, still, further⟩ := ih _ (by omega) run rfl
            obtain ⟨alone₀, still₀, same⟩ := declaration_without_includes first alone₁
            refine ⟨alone₀, still₀.trans still, fun load' => ?_⟩
            unfold document
            rw [exec_bind_ok (same load')]
            exact further load'

end Idl

/-- From `s` to `s'` nothing happened but that a text without a model name declared the types of
`m`, and asked for containers. -/
structure ModelSet.Annexes (s : ModelSet) (m : Model) (s' : ModelSet) : Prop where
  same : s.SameModels s'
  progress : s.Progress (· ∈ m.named) s'
  foreign : ∀ {t}, s'.Holds t → ¬ s.Holds t → t.Foreign

namespace ModelSet.Annexes

variable {s s' : ModelSet} {m : Model} {t : Ty} {R : Pairing}

/-- What is new and no container is declared by the model. -/
theorem mem_named (annexes : s.Annexes m s') (held : s'.Holds t) (new : ¬ s.Holds t)
    (leaf : t.elements = []) : t ∈ m.named := by
  obtain ⟨_, advance, _⟩ := annexes.progress
  obtain ⟨k, stamp, _⟩ := advance.stamp held new
  have isNamed : t.isNamed = true := by
    cases t with
    | prim => cases stamp
    | list | set | map => cases leaf
    | enum | record => rfl
  rcases advance.named held new isNamed with own | ⟨n, owner, _⟩
  · exact own
  · rw [(annexes.foreign held new).1] at owner
    cases owner

/-- The types that only the later set has. -/
def Extra (s s' : ModelSet) (t : Ty) : Prop := t.Foreign ∧ s'.Holds t ∧ ¬ s.Holds t

/-- Both sets are alike, apart from what is new. -/
theorem alike (annexes : s.Annexes m s') (mirrors : Twin.Mirrors R s) :
    Twin.Alike (Extra s s') (fun _ => True) ⟨R, s, s'⟩ := by
  obtain ⟨_, advance, _⟩ := id annexes.progress
  have wf := mirrors.wf
  have wf' := annexes.progress.wellFormed
  exact {
    wf
    wf'
    one := mirrors.one
    below := fun paired =>
      (mirrors.below paired).imp_right fun early => Nat.lt_of_lt_of_le early advance.next_le
    models := annexes.same.models ▸ mirrors.models
    pending := annexes.same.pending
    known := by
      intro k t found
      exact ⟨t, annexes.progress.setback.type? wf found, mirrors.like (wf.holds found)⟩
    extra := by
      intro k t found missing
      have held := wf'.holds found
      have new : ¬ s.Holds t := by
        unfold ModelSet.Holds
        rw [wf'.keyed found, missing]
        simp
      refine ⟨⟨annexes.foreign held new, held, new⟩, fun a b stamp paired => ?_⟩
      obtain ⟨k, stamp', late⟩ := advance.stamp held new
      cases stamp.symm.trans stamp'
      exact absurd (mirrors.below paired).2 (Nat.not_lt.mpr late)
    all := fun _ => trivial }

theorem setting (s s' : ModelSet) (n : String) :
    Twin.Setting (Extra s s') (fun _ => True) (some n) where
  foreign isExtra := isExtra.1
  apart named := by cases named
  declared _ _ := trivial
  container _ := trivial

end ModelSet.Annexes

namespace Load

variable {load : Loader} {lexFile file text : String} {origin : SourceRef} {m m' : Model}
variable {σ τ : LoadState}

theorem parseInto_eq_ok (run : (parseInto load m lexFile file text origin).exec σ = (.ok m', τ)) :
    ∃ tokens, tokenizeFile .idl lexFile text = .ok tokens ∧
      (document ⟨file, tokens.eof⟩ origin load m tokens.tokens).exec σ = (.ok m', τ) := by
  obtain ⟨e, failed⟩ | ⟨tokens, cut⟩ := eq_error_or_eq_ok (tokenizeFile .idl lexFile text)
  · rw [parseInto, exec_lift_bind_error failed] at run
    cases run
  · rw [parseInto, exec_lift_bind cut] at run
    exact ⟨tokens, cut, run⟩

/-- The loader that opens no file. -/
def refuseAll : Loader := fun _ => throw (.fetch "")

theorem refuseAll_parallel (X I : Ty → Prop) : refuseAll.Parallel X I refuseAll :=
  fun _ _ alike => .refuse alike

/-- A text without a model name and without includes is read beside itself, to see how the
containers are named that it asks for. -/
theorem parseAnonymousWith_annexes {R : Pairing} (steady : load.Steady)
    (mirrors : Twin.Mirrors R σ.set)
    (run : (parseAnonymousWith load text origin).exec σ = (.ok m, τ)) (alone : m.includes = []) :
    σ.set.Annexes m τ.set := by
  have wf := mirrors.wf
  have start : Model.Building { name := none } σ.set := building_nil wf (by simp)
  rw [exec_parseAnonymousWith steady wf] at run
  obtain ⟨tokens, cut, run⟩ := parseInto_eq_ok run
  have reads := (document_reads _ origin load _ tokens.tokens σ).ok run
  obtain ⟨_, still, same⟩ := document_without_includes run alone
  refine ⟨still.same, (reads.registers steady start rfl).1, fun {t} held new => ?_⟩
  -- No include is read, so any loader will do.
  have drafts : Twin.Drafts (fun _ => False) σ.set.OldOrForeign ⟨R, σ.set, σ.set⟩
      { name := none } { name := none } :=
    ⟨mirrors.oldOrForeign, Twin.Mirrors.setting_oldOrForeign, by simp, .nil _⟩
  have runs : Parallel _ _
      (document ⟨origin.label "<anonymous>", tokens.eof⟩ origin refuseAll _ tokens.tokens)
      (document _ origin refuseAll _ _) _ _ :=
    document_parallel (refuseAll_parallel _ _) drafts (lexed_of_tokenizeFile cut)
  have ends := runs σ σ rfl rfl
  rw [same refuseAll] at ends
  cases ends with
  | ok _ alike _ => exact (alike.all held).resolve_left new

end Load

/-- The error is that a name is unknown which stands for a type of the model. -/
def Model.MissedBy (m : Model) (e : SourceError) : Prop :=
  ∃ t ∈ m.named, ∃ file pos, e = .parse file pos (.unknownType t.name) ∨
    ∃ keyword, e = .parse file pos (.selfReference keyword t.name)

namespace Session

/-- What the caller of a computation sees: the view of the model, or the error. -/
def seen (x : LoadM Model) (σ : LoadState) : Except SourceError Tree :=
  (x.exec σ).1.map View.model

variable {s : ModelSet}

/-- A model without a name stays unseen by a later call, unless the call would stop at a name that
the model gives to a type, and now goes on to its end. In all other cases the later call ends as it
would have without the model: with the same view, or with the same error. -/
theorem unseen_iff_not_missed (session : Leads .empty s) (files : FileTree) (text : String)
    (origin : SourceRef) (log : List LoadEvent) {m : Model} {τ : LoadState}
    (accepted : (parseAnonymousModel files text origin).exec ⟨s, log⟩ = (.ok m, τ))
    (alone : m.includes = []) (files' : FileTree) (name text' : String) (origin' : SourceRef)
    (log₁ log₂ : List LoadEvent) :
    let before := seen (parseModel files' name text' origin') ⟨s, log₁⟩
    let after := seen (parseModel files' name text' origin') ⟨τ.set, log₂⟩
    (after.toOption = before.toOption ↔
      ¬ ((∃ e, before = .error e ∧ m.MissedBy e) ∧ ∃ view, after = .ok view)) ∧
    (after = before ∨ ∃ e, before = .error e ∧ m.MissedBy e) := by
  obtain ⟨R, mirrors⟩ := session.mirrors
  have steady : (Load.loader files').Steady := Load.loadInclude_steady _
  have annexes : s.Annexes m τ.set :=
    Load.parseAnonymousWith_annexes (Load.loadInclude_steady _) mirrors accepted alone
  have settings := ModelSet.Annexes.setting s τ.set
  have missed {e : SourceError} (leaks : Twin.Leak (ModelSet.Annexes.Extra s τ.set) e) :
      m.MissedBy e := by
    obtain ⟨t, file, pos, ⟨foreign, held, new⟩, leaf, shown⟩ := leaks
    rw [Ty.qname_eq_name foreign.1] at shown
    exact ⟨t, annexes.mem_named held new leaf, file, pos, shown⟩
  have ends : Ends _ _ _ _ ((parseModel files' name text' origin').exec ⟨s, log₁⟩)
      ((parseModel files' name text' origin').exec ⟨τ.set, log₂⟩) :=
    Load.parseWith_parallel steady steady (Load.loadInclude_parallel settings _) (settings name)
      (annexes.alike mirrors) _ _ rfl rfl
  unfold seen
  generalize (parseModel files' name text' origin').exec ⟨s, log₁⟩ = out at ends
  generalize (parseModel files' name text' origin').exec ⟨τ.set, log₂⟩ = out' at ends
  cases ends with
  | @ok _ m₁ m₁' _ _ _ _ like =>
      have same : View.model m₁' = View.model m₁ := like.view
      simp [Except.map, same]
  | error e => simp [Except.map]
  | @leak e _ _ leaks =>
      refine ⟨?_, .inr ⟨e, rfl, missed leaks⟩⟩
      obtain ⟨_ | m₁, _⟩ := out'
      · simp [Except.map, Except.toOption]
      · simp [Except.map, Except.toOption, missed leaks]

/-- A model that is refused, because it does not know a struct, is accepted once a text without a
model name has declared a struct of that name. -/
theorem seen_by_refused_model :
    let anonymous := (parseAnonymousModel (.empty []) "struct S \x7b\x7d" .nowhere).exec {}
    let call := parseModel (.empty []) "m" "struct T \x7b 1: S s \x7d" .nowhere
    anonymous.1.toOption.map (fun m => (m.includes, m.named.map (·.name))) = some ([], ["S"]) ∧
      refusal? (call.exec {}).1 = some (.parse "m" ⟨1, 15⟩ (.unknownType "S")) ∧
      (seen call ⟨anonymous.2.set, []⟩).toOption ≠ (seen call {}).toOption := by
  intro anonymous call
  have declares : anonymous.1.toOption.map (fun m => (m.includes, m.named.map (·.name))) =
      some ([], ["S"]) := by decide +kernel
  have refused : refusal? (call.exec {}).1 = some (.parse "m" ⟨1, 15⟩ (.unknownType "S")) := by
    decide +kernel
  have accepted : (seen call ⟨anonymous.2.set, []⟩).toOption.isSome = true := by decide +kernel
  obtain ⟨m, read, shape⟩ := Option.map_eq_some_iff.mp declares
  obtain ⟨alone, names⟩ := Prod.mk.inj shape
  obtain ⟨view, shown⟩ := Option.isSome_iff_exists.mp accepted
  obtain ⟨t, member, name⟩ : ∃ t ∈ m.named, t.name = "S" :=
    List.mem_map.mp (names ▸ List.mem_singleton_self "S")
  have stops : seen call {} = .error (.parse "m" ⟨1, 15⟩ (.unknownType t.name)) := by
    rw [seen, eq_error_of_refusal? refused, name]
    rfl
  refine ⟨declares, refused, fun same => ?_⟩
  have unseen := (unseen_iff_not_missed .refl (.empty []) _ .nowhere []
    (Prod.ext (eq_ok_of_toOption read) rfl) alone (.empty []) "m" _ .nowhere [] []).1.mp same
  exact unseen ⟨⟨_, stops, t, member, "m", ⟨1, 15⟩, .inl rfl⟩, view, eq_ok_of_toOption shown⟩

end Session

end IdlGen
