import IdlGen.Proofs.Idl.Valid
import IdlGen.Proofs.Load.Session

/-!
# Loading gives valid models

Whatever calls lead to a set, and whether they succeed or fail, the set is valid over some space of
types, and so is every model that a call gives.
-/

namespace IdlGen

open Idl LoadM

namespace Load

variable {load : Loader} {files : FileTree} {m : Model} {σ : LoadState}
variable {name lexFile file text : String} {origin source : SourceRef} {space : TypeSpace}

theorem parseInto_valid (loads : load.Valid) (valid : m.Valid space) :
    Validates space (parseInto load m lexFile file text origin)
      (fun wider m' => m'.Valid wider) σ :=
  .lift_bind fun _ _ => document_valid loads valid

theorem parseWith_valid (loads : load.Valid) :
    Validates space (parseWith load name text origin) (fun wider m => m.Valid wider) σ := by
  unfold parseWith
  refine .getSet_bind fun set => ?_
  split
  · exact .refuse
  · next m s created =>
      obtain ⟨_, rfl, rfl⟩ := ModelSet.create_eq_ok_iff.mp created
      refine .setSet_bind le_rfl (set.reserve name) fun τ start => ?_
      simp only [WP.bind_iff, WP.tryCatch_iff, WP.updateSet_iff, WP.tell_iff, WP.pure_iff,
        WP.throw_iff]
      refine WP.mono (parseInto_valid loads (Model.valid_nil (some name)) start) ?_ ?_
      · rintro m υ ⟨wider, grown, set, valid⟩
        exact ⟨wider, grown, set.finish valid, valid⟩
      · rintro e υ ⟨wider, grown, set⟩
        exact ⟨wider, grown, set.abandon name⟩

theorem parseAnonymousWith_valid (loads : load.Valid) :
    Validates space (parseAnonymousWith load text origin) (fun wider m => m.Valid wider) σ := by
  refine .bind (parseInto_valid loads (Model.valid_nil none)) fun wider _ m τ valid => ?_
  exact .updateSet_bind (P := fun _ _ => True)
    (fun set => ⟨wider, le_rfl, set.finish valid, trivial⟩)
    fun _ grown _ _ _ => .pure (valid.mono grown)

theorem readSource_validates :
    Validates space (readSource files source) (fun _ _ => True) σ :=
  fun start => readSource_wp (fun _ _ same => ⟨space, le_rfl, same ▸ start, trivial⟩)
    fun _ _ same => ⟨space, le_rfl, same ▸ start⟩

theorem loadWith_valid (loads : load.Valid) :
    Validates space (loadWith load files source) (fun wider m => m.Valid wider) σ := by
  unfold loadWith
  split
  · exact .refuse
  · exact .bind readSource_validates fun _ _ _ _ _ => parseWith_valid loads

/-- Included files give valid models, however deep they may nest. -/
theorem loadInclude_valid (depth : Nat) : (loadInclude files depth).Valid := by
  induction depth with
  | zero => exact fun space source σ => .bind readSource_validates fun _ _ _ _ _ => .refuse
  | succ depth ih =>
      exact fun space source σ => .bind (loadWith_valid ih) fun _ _ _ _ _ => .pure trivial

end Load

namespace Session

variable {s : ModelSet}

theorem Call.valid (files : FileTree) (depth : Nat) (call : Call) (σ : LoadState)
    (space : TypeSpace) :
    Validates space (call.run files depth) (fun wider m => m.Valid wider) σ := by
  have loads : (Load.loadInclude files depth).Valid := Load.loadInclude_valid depth
  cases call with
  | parse name text origin => exact Load.parseWith_valid loads
  | load source => exact Load.loadWith_valid loads
  | anonymous text origin => exact Load.parseAnonymousWith_valid loads

/-- The space of a session has every type that was ever registered. -/
theorem Leads.valid (session : Leads .empty s) : ∃ space, s.Valid space := by
  induction session with
  | refl => exact ⟨_, ModelSet.valid_empty⟩
  | tail _ step ih =>
      obtain ⟨space, valid⟩ := ih
      cases step with
      | call files depth call log =>
          have ended := call.valid files depth ⟨_, log⟩ space valid
          refine (WP.mono ended ?_ ?_).both (P := fun τ => ∃ space, τ.set.Valid space)
          · exact fun _ _ ⟨wider, _, set, _⟩ => ⟨wider, set⟩
          · exact fun _ _ ⟨wider, _, set⟩ => ⟨wider, set⟩
      | request held =>
          obtain ⟨wider, _, set, _⟩ := valid.request fun e member => valid.type? (held e member)
          exact ⟨wider, set⟩

/-- From every set that calls lead to, each call that gives a model gives a valid one, and leaves
only valid models in the set. All of them are valid over one space of types, to which the types of
the registry belong as well. -/
theorem parsed_valid (session : Leads .empty s) (files : FileTree) (call : Call)
    (log : List LoadEvent) {m : Model} {τ : LoadState}
    (run : (call.run files (Load.maxDepth files)).exec ⟨s, log⟩ = (.ok m, τ)) :
    ∃ space : TypeSpace, (∀ t, τ.set.Holds t → space.mem t) ∧ m.Valid space ∧
      ∀ m' ∈ τ.set.models, m'.Valid space := by
  obtain ⟨space, start⟩ := session.valid
  obtain ⟨wider, _, set, valid⟩ := (call.valid files _ ⟨s, log⟩ space start).ok run
  exact ⟨wider, fun t held => (set.type? held).2, valid, set.models⟩

/-- After a text that is refused for the place of its `void`: a model with a constant, a default, a
one-way function and an exception, and with a parent from another file. Its constants and defaults
are values of their types. -/
theorem parsed_valid_after_failure :
    let files : FileTree := ⟨[], [(["b.thrift"], .file (.text
      "exception E \x7b\x7d service B \x7b void f() \x7d"))], []⟩
    let failing := Call.parse "v" "struct V \x7b 1: list<void> f \x7d" .nowhere
    let s := ((failing.run files (Load.maxDepth files)).exec {}).2.set
    let call := Call.parse "m" ("include \"b.thrift\" const i32 N = 7 " ++
      "struct S \x7b 1: list<i32> f = [N] \x7d service T extends b.B " ++
      "\x7b oneway void g(1: S s), i32 h() throws (1: b.E e) \x7d") (.file "m.thrift")
    s.isLoaded "v" = false ∧
      ∃ m τ space, (call.run files (Load.maxDepth files)).exec ⟨s, []⟩ = (.ok m, τ) ∧
        m.Valid space ∧ (∀ c ∈ m.consts, c.type.Inhabits c.value) ∧
        (∀ t ∈ m.structs, ∃ body, t.record? = some body ∧
          ∀ f ∈ body.fields.fields, ∀ v, f.default = some v → f.type.Inhabits v) ∧
        m.consts.length = 1 ∧ m.structs.length = 1 ∧
        m.services.map (·.functions.map (·.oneway)) = [[false, true, false]] := by
  intro files failing s call
  have session : Leads .empty s := .single (.call _ files _ failing [])
  have parsed : (((call.run files (Load.maxDepth files)).exec ⟨s, []⟩).1.toOption.map fun m =>
      (m.consts.length, m.structs.length, m.services.map (·.functions.map (·.oneway)))) =
        some (1, 1, [[false, true, false]]) := by decide +kernel
  obtain ⟨m, ok, content⟩ := Option.map_eq_some_iff.mp parsed
  have run : (call.run files (Load.maxDepth files)).exec ⟨s, []⟩ = (.ok m, _) :=
    Prod.ext (eq_ok_of_toOption ok) rfl
  simp only [Prod.mk.injEq] at content
  obtain ⟨space, _, valid, _⟩ := parsed_valid session files call [] run
  refine ⟨by decide +kernel, m, _, space, run, valid, fun c member => ?_, fun t member => ?_,
    content⟩
  · exact (valid.consts c member).value.inhabits
  · obtain ⟨body, isRecord, fields⟩ := valid.records t (List.mem_append_left _ member)
    refine ⟨body, isRecord, fun f inside v given => ?_⟩
    exact ((fields.fields f inside).default v given).inhabits

end Session

end IdlGen
