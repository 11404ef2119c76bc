import IdlGen.Proofs.Idl.Additions
import IdlGen.Proofs.Load.Includes
import IdlGen.Proofs.Load.Valid

/-!
# Names across models

Every loaded model was built by additions of identifiers, one after another. So each has one flat
space of names, and the two ways to a declaration of another model agree: a symbol is found by
cutting the name at its first point and going on in that model, a type by looking up the whole name
in the registry.
-/

namespace IdlGen

open Idl LoadM

namespace ModelSet

variable {s s' : ModelSet} {m : Model}

/-- Additions of identifiers built every loaded model. -/
def Built (s : ModelSet) : Prop :=
  ∀ m ∈ s.models, m.BuiltBy (Declaration.Named Identifier Identifier)

namespace Built

@[simp] theorem empty : ModelSet.empty.Built := fun _ member => absurd member List.not_mem_nil

theorem of_models (built : s.Built) (models : s'.models = s.models) : s'.Built := by
  unfold Built
  rwa [models]

theorem finish (set : s.Built) (built : m.BuiltBy (Declaration.Named Identifier Identifier)) :
    (s.finish m).Built := by
  cases name : m.name with
  | none => rwa [finish_anonymous name]
  | some n =>
      rw [finish_named name]
      exact forall_mem_concat set built

end Built

end ModelSet

/-- From a set whose models were built by additions, the computation ends in such a set, and its
result is in `P`. -/
def LoadM.Builds {α : Type} (x : LoadM α) (P : α → Prop) (σ : LoadState) : Prop :=
  σ.set.Built → x.WP (fun a τ => P a ∧ τ.set.Built) (fun _ τ => τ.set.Built) σ

namespace Idl

variable {r : Reader} {origin : SourceRef} {load : Loader} {m : Model} {toks : List Token}
variable {σ : LoadState}

/-- What the loader loads was built by additions. -/
def Loader.Builds (load : Loader) : Prop :=
  ∀ source σ, σ.set.WellFormed → LoadM.Builds (load source) (fun _ => True) σ

/-- While a declaration is read, only its include can load models. -/
theorem declaration_builds (loads : load.Builds) (wf : σ.set.WellFormed) :
    LoadM.Builds (declaration r origin load m toks) (fun _ => True) σ := by
  intro built
  rcases declaration_cases r origin m toks with isInclude | ⟨x, same, quiet⟩
  · rw [isInclude]
    unfold WP
    rcases includeDecl_cases r origin m toks σ with ⟨out, ended, _⟩ | ⟨source, _, p, _, _, _, ended⟩
    · rw [ended load]
      cases out with
      | ok p => exact ⟨trivial, built⟩
      | error e => exact built
    · rw [ended load]
      exact WP.bind_iff.mpr (loads source ⟨σ.set, _⟩ wf built)
  · rw [same]
    exact WP.mono (quiet σ) (fun _ τ h => ⟨trivial, built.of_models h.1.same.models⟩)
      fun _ τ h => built.of_models h.same.models

/-- A file adds to its model, declaration by declaration. -/
theorem Reads.built {a b : Place} (reads : Reads r origin load a b) (steady : load.Steady)
    (loads : load.Builds) (building : a.model.Building a.state.set)
    (built : a.model.BuiltBy (Declaration.Named Identifier Identifier))
    (set : a.state.set.Built) :
    b.model.BuiltBy (Declaration.Named Identifier Identifier) ∧ b.state.set.Built := by
  induction reads with
  | refl => exact ⟨built, set⟩
  | tail front step ih =>
      obtain ⟨built, set⟩ := ih
      cases step with
      | intro read =>
          have wf := (Reads.building front steady building).1.wf
          obtain ⟨_, _, grows⟩ := (declaration_adds steady wf).ok read
          exact ⟨grows.builtBy built, ((declaration_builds loads wf set).ok read).2⟩

theorem document_builds (steady : load.Steady) (loads : load.Builds)
    (building : m.Building σ.set) (built : m.BuiltBy (Declaration.Named Identifier Identifier)) :
    LoadM.Builds (document r origin load m toks)
      (·.BuiltBy (Declaration.Named Identifier Identifier)) σ := by
  intro set
  refine WP.mono (document_reads r origin load m toks σ) ?_ ?_
  · intro m' τ reads
    exact reads.built steady loads building built set
  · rintro e τ ⟨b, reads, failed⟩
    have wf := (reads.building steady building).1.wf
    obtain ⟨_, set⟩ := reads.built steady loads building built set
    exact (declaration_builds loads wf set).error failed

end Idl

namespace Load

variable {load : Loader} {files : FileTree} {m : Model} {σ : LoadState}
variable {name lexFile file text : String} {origin source : SourceRef}

theorem parseInto_builds (steady : load.Steady) (loads : load.Builds)
    (building : m.Building σ.set) (built : m.BuiltBy (Declaration.Named Identifier Identifier)) :
    LoadM.Builds (parseInto load m lexFile file text origin)
      (·.BuiltBy (Declaration.Named Identifier Identifier)) σ := by
  intro set
  refine WP.bind_iff.mpr (WP.lift_iff.mpr ⟨fun tokens _ => ?_, fun _ _ => set⟩)
  exact document_builds steady loads building built set

theorem parseWith_builds (steady : load.Steady) (loads : load.Builds) (wf : σ.set.WellFormed) :
    LoadM.Builds (parseWith load name text origin)
      (·.BuiltBy (Declaration.Named Identifier Identifier)) σ := by
  intro set
  unfold parseWith
  simp only [WP.bind_iff, WP.getSet_iff]
  split
  · exact set
  · rename_i m s created
    obtain ⟨unknown, rfl, rfl⟩ := ModelSet.create_eq_ok_iff.mp created
    simp only [WP.bind_iff, WP.setSet_iff, WP.tryCatch_iff, WP.updateSet_iff, WP.tell_iff,
      WP.pure_iff, WP.throw_iff]
    have start : Model.Building { name := some name } (σ.set.reserve name) :=
      building_reserve wf unknown
    refine WP.mono (parseInto_builds (σ := ⟨σ.set.reserve name, σ.log⟩) steady loads start
      (.start _) set) ?_ fun e τ set => set
    rintro m τ ⟨built, set⟩
    exact ⟨built, set.finish built⟩

theorem parseAnonymousWith_builds (steady : load.Steady) (loads : load.Builds)
    (wf : σ.set.WellFormed) :
    LoadM.Builds (parseAnonymousWith load text origin)
      (·.BuiltBy (Declaration.Named Identifier Identifier)) σ := by
  intro set
  have start : Model.Building { name := none } σ.set := building_nil wf (by simp)
  simp only [parseAnonymousWith, WP.bind_iff, WP.updateSet_iff, WP.pure_iff]
  refine WP.mono (parseInto_builds steady loads start (.start _) set) ?_ fun _ _ set => set
  rintro m τ ⟨built, set⟩
  exact ⟨built, set.finish built⟩

theorem loadWith_builds (steady : load.Steady) (loads : load.Builds) (wf : σ.set.WellFormed) :
    LoadM.Builds (loadWith load files source)
      (·.BuiltBy (Declaration.Named Identifier Identifier)) σ := by
  intro set
  unfold loadWith
  split
  · exact set
  · refine WP.bind_iff.mpr (readSource_wp (fun text τ same => ?_) fun e τ same => same ▸ set)
    exact parseWith_builds steady loads (same ▸ wf) (same ▸ set)

/-- Included files add to their models, however deep they may nest. -/
theorem loadInclude_builds (depth : Nat) : (loadInclude files depth).Builds := by
  induction depth with
  | zero =>
      intro source σ _ set
      have kept : ∀ {τ : LoadState}, τ.set = σ.set → τ.set.Built := fun same => same ▸ set
      exact WP.bind_iff.mpr (readSource_wp (fun _ _ => kept) fun _ _ => kept)
  | succ depth ih =>
      intro source σ wf set
      refine WP.bind_iff.mpr (WP.mono (loadWith_builds (loadInclude_steady depth) ih wf set) ?_ ?_)
      · exact fun _ _ ⟨_, set⟩ => ⟨trivial, set⟩
      · exact fun _ _ set => set

end Load

namespace Session

variable {s : ModelSet}

theorem Call.builds (files : FileTree) (depth : Nat) (call : Call) {σ : LoadState}
    (wf : σ.set.WellFormed) :
    LoadM.Builds (call.run files depth)
      (·.BuiltBy (Declaration.Named Identifier Identifier)) σ := by
  have steady : (Load.loadInclude files depth).Steady := Load.loadInclude_steady depth
  have loads : (Load.loadInclude files depth).Builds := Load.loadInclude_builds depth
  cases call with
  | parse name text origin => exact Load.parseWith_builds steady loads wf
  | load source => exact Load.loadWith_builds steady loads wf
  | anonymous text origin => exact Load.parseAnonymousWith_builds steady loads wf

/-- Whatever calls lead to a set, additions built its models. -/
theorem Leads.built (session : Leads .empty s) : s.Built := by
  induction session with
  | refl => exact .empty
  | tail front step ih =>
      have wf := Leads.wellFormed front .empty
      cases step with
      | call files depth call log =>
          have ended := call.builds files depth (σ := ⟨_, log⟩) wf ih
          exact (WP.mono ended (fun _ _ h => h.2) fun _ _ h => h).both
      | request held => exact ih.of_models Container.request_models

end Session

namespace Model

variable {m other : Model} {s : ModelSet} {front rest : String}

/-- A name that the model does not declare is looked up in the model that its front names. -/
theorem lookup_pointed (free : PointFree front)
    (undeclared : m.declared? (front ++ "." ++ rest) = none) (foreign : m.name ≠ some front)
    (found : s.model? front = some other) :
    m.lookup s (front ++ "." ++ rest) = other.lookup s rest := by
  have cut := splitAtPoint?_append free rest.toList
  rw [lookup, lookupChars, String.ofList_toList, undeclared]
  dsimp only
  split
  · rename_i uncut
    rw [toList_pointed, cut] at uncut
    cases uncut
  · rename_i split
    rw [toList_pointed, cut] at split
    cases split
    rw [String.ofList_toList, if_neg foreign, found]
    rfl

/-- Behind a point, a model declares elements only. -/
theorem Flat.declared?_pointed (flat : m.Flat)
    (noElement : m.element? (front ++ "." ++ rest) = none) :
    m.declared? (front ++ "." ++ rest) = none := by
  rw [declared?_of_element?_eq_none noElement, List.find?_eq_none]
  intro symbol member same
  have free := flat.pointFree symbol member
  rw [of_decide_eq_true same] at free
  exact free (by simp)

/-- Behind two points, a model declares nothing, since names of elements hold no point. -/
theorem Flat.element?_pointed_twice {middle : String} (flat : m.Flat)
    (elements : ∀ x ∈ m.elements, PointFree x.2.name) (free : PointFree front) :
    m.element? (front ++ "." ++ (middle ++ "." ++ rest)) = none := by
  refine Option.eq_none_iff_forall_ne_some.mpr fun e found => ?_
  have member := flat.element?_iff.mp found
  obtain ⟨t, inEnums, keyed⟩ := flat.mem_elements.mp member
  obtain ⟨_, _, _, key⟩ := Flat.mem_keyedElements.mp keyed
  obtain ⟨_, name⟩ := pointed_inj free (flat.pointFree_enum inEnums) key
  have free : PointFree e.name := elements _ member
  rw [← name] at free
  exact free (by simp)

theorem BuiltBy.elements_named {names elements : String → Prop}
    (built : m.BuiltBy (Declaration.Named names elements)) :
    ∀ x ∈ m.elements, elements x.2.name := by
  refine built.rec_add (P := fun m => ∀ x ∈ m.elements, elements x.2.name) (by simp)
    (fun _ _ before => before) ?_
  intro m s d ⟨_, body⟩ before _
  cases d with
  | enum name enumeration =>
      obtain ⟨b, reached, rfl⟩ := body name enumeration rfl
      intro x member
      rcases List.mem_append.mp member with old | new
      · exact before x old
      · obtain ⟨e, inBody, rfl⟩ := List.mem_map.mp new
        exact reached.elements.2 e inBody
  | record isException => cases isException <;> exact before
  | const | service => exact before

theorem BuiltBy.flat_of_identifiers
    (built : m.BuiltBy (Declaration.Named Identifier Identifier)) : m.Flat := by
  refine BuiltBy.flat (built.mono fun d named => ⟨named.1.pointFree, fun name body isEnum => ?_⟩)
  obtain ⟨b, reached, same⟩ := named.2 name body isEnum
  exact ⟨b, reached.mono fun _ _ => trivial, same⟩

theorem exists_symbol_of_mem_named {t : Ty} (member : t ∈ m.named) :
    ∃ symbol ∈ m.declarations, symbol.type? = some t ∧ symbol.name = t.name := by
  simp only [named, List.mem_append] at member
  rcases member with (isEnum | isStruct) | isException
  · exact ⟨.enum t, by simp [declarations, isEnum], rfl, rfl⟩
  · exact ⟨.struct t, by simp [declarations, isStruct], rfl, rfl⟩
  · exact ⟨.exception t, by simp [declarations, isException], rfl, rfl⟩

end Model

/-- The registry has the types of a loaded model under the names that the model gives them. -/
theorem ModelSet.WellFormed.type?_declared {s : ModelSet} {m : Model} {t : Ty}
    (wf : s.WellFormed) (loaded : m ∈ s.models) (member : t ∈ m.named) :
    s.type? (m.qname t.name) = some t := by
  obtain ⟨held, _, owner⟩ := wf.declared loaded member
  rw [ModelSet.Holds, t.qname_eq_qualify, owner] at held
  exact held

namespace Session

variable {s : ModelSet}

/-- What a loaded model declares is found from another one behind the name of its model, and it is
the same as from within. Only an element of the other model can hide a declaration, and only a type
registered behind both names can hide a type from the registry; nothing hides an element. -/
theorem resolution_agrees (session : Leads .empty s) {a b : Model} (loaded : a ∈ s.models)
    (loaded' : b ∈ s.models) (different : a ≠ b) {n : String} (name : a.name = some n)
    (free : PointFree n) :
    (∀ symbol ∈ a.declarations, a.lookup s symbol.name = some symbol ∧
        (b.element? (n ++ "." ++ symbol.name) = none →
          b.lookup s (n ++ "." ++ symbol.name) = some symbol)) ∧
      (∀ t ∈ a.named, (a.lookup s t.name).bind Symbol.type? = some t ∧
        a.lookupType s t.name = some t ∧
        (b.element? (n ++ "." ++ t.name) = none →
          (b.lookup s (n ++ "." ++ t.name)).bind Symbol.type? = some t) ∧
        (s.type? (b.qname (n ++ "." ++ t.name)) = none →
          b.lookupType s (n ++ "." ++ t.name) = some t)) ∧
      ∀ t ∈ a.enums, ∃ body, t.enumeration? = some body ∧ ∀ x e, body.element? x = some e →
        a.lookup s (t.name ++ "." ++ x) = some (.element e) ∧
          b.lookup s (n ++ "." ++ (t.name ++ "." ++ x)) = some (.element e) := by
  have wf : s.WellFormed := session.wellFormed .empty
  have ordered := session.ordered
  have flat := (session.built a loaded).flat_of_identifiers
  have flat' := (session.built b loaded').flat_of_identifiers
  have foreign : b.name ≠ some n := fun same =>
    different (List.inj_on_of_nodup_map ordered.distinct loaded loaded' (name.trans same.symm))
  have across (rest : String) (noElement : b.element? (n ++ "." ++ rest) = none) :
      b.lookup s (n ++ "." ++ rest) = a.lookup s rest :=
    Model.lookup_pointed free (flat'.declared?_pointed noElement) foreign
      (ordered.model?_eq_some_iff.mpr ⟨loaded, name⟩)
  refine ⟨fun symbol member => ⟨flat.lookup_declaration member s, fun noElement => ?_⟩,
    fun t member => ?_, fun t member => ?_⟩
  · rw [across _ noElement, flat.lookup_declaration member]
  · obtain ⟨symbol, inModel, isType, sameName⟩ := Model.exists_symbol_of_mem_named member
    have looked : (a.lookup s t.name).bind Symbol.type? = some t := by
      rw [← sameName, flat.lookup_declaration inModel]
      exact isType
    have own := wf.type?_declared loaded member
    have registered : s.type? (n ++ "." ++ t.name) = some t := by
      rw [Model.qname, name] at own
      exact own
    refine ⟨looked, ?_, fun noElement => ?_, fun unregistered => ?_⟩
    · rw [Model.lookupType, own]
      rfl
    · rw [across _ noElement, looked]
    · rw [Model.lookupType, unregistered, registered]
      rfl
  · obtain ⟨body, isEnum, _⟩ := flat.bodies t member
    refine ⟨body, isEnum, fun x e found => ?_⟩
    have own : a.lookup s (t.name ++ "." ++ x) = some (.element e) :=
      Model.lookup_of_declared? (flat.declared?_element member isEnum found) s
    have elements : ∀ x ∈ b.elements, PointFree x.2.name := fun x inModel =>
      ((session.built b loaded').elements_named x inModel).pointFree
    exact ⟨own, by rw [across _ (flat'.element?_pointed_twice elements free), own]⟩

/-- A model that has an element under the name of a constant of the other one, and still sees the
struct and the element next to that constant. -/
theorem resolution_agrees_beside_shadow :
    let first := Call.parse "a" "enum E \x7b X \x7d const i32 c = 7 struct T \x7b\x7d" .nowhere
    let second := Call.parse "b" "enum a \x7b c \x7d" .nowhere
    let s := ((first.run (.empty []) 1).exec {}).2.set
    let s := ((second.run (.empty []) 1).exec ⟨s, []⟩).2.set
    ∃ a b : Model, s.models = [a, b] ∧ a.name = some "a" ∧ (b.element? "a.c").isSome = true ∧
      (∃ t ∈ a.structs, (b.lookup s "a.T").bind Symbol.type? = some t ∧
        b.lookupType s "a.T" = some t) ∧
      ∃ e, b.lookup s "a.E.X" = some (.element e) ∧ a.lookup s "E.X" = some (.element e) := by
  intro first second s₁ s
  have session : Leads .empty s :=
    .tail (.single (.call _ (.empty []) 1 first [])) (.call s₁ (.empty []) 1 second [])
  have names : s.models.map (·.name) = [some "a", some "b"] := by decide +kernel
  have elements : s.models.map (fun m => ((m.element? "a.c").isSome, (m.element? "a.T").isNone)) =
      [(false, true), (true, true)] := by decide +kernel
  have structs : s.models.map (·.structs.map Ty.name) = [["T"], []] := by decide +kernel
  have enums : s.models.map (·.enums.map fun t =>
      (t.name, (t.enumeration?.bind (·.element? "X")).isSome)) =
        [[("E", true)], [("a", false)]] := by decide +kernel
  have unregistered : (s.type? "b.a.T").isNone = true := by decide +kernel
  obtain ⟨a, rest, models, nameA, names⟩ := List.map_eq_cons_iff.mp names
  obtain ⟨b, last, rfl, nameB, names⟩ := List.map_eq_cons_iff.mp names
  cases List.map_eq_nil_iff.mp names
  rw [models] at elements structs enums
  have loaded : a ∈ s.models ∧ b ∈ s.models := by simp [models]
  have different : a ≠ b := by
    rintro rfl
    rw [nameA] at nameB
    exact absurd nameB (by decide)
  obtain ⟨_, types, elements'⟩ :=
    resolution_agrees session loaded.1 loaded.2 different nameA (by decide)
  simp only [List.map_cons, List.map_nil, List.cons.injEq, Prod.mk.injEq, and_true] at elements
  obtain ⟨t, structs, nameT⟩ := List.map_eq_singleton_iff.mp (List.cons.inj structs).1
  obtain ⟨u, enums, isE⟩ := List.map_eq_singleton_iff.mp (List.cons.inj enums).1
  obtain ⟨nameE, hasX⟩ := Prod.mk.inj isE
  refine ⟨a, b, models, nameA, elements.2.1, ⟨t, by simp [structs], ?_⟩, ?_⟩
  · obtain ⟨_, _, looked, registered⟩ := types t (by simp [Model.named, structs])
    rw [nameT] at looked registered
    rw [Model.qname, nameB] at registered
    exact ⟨looked (Option.isNone_iff_eq_none.mp elements.2.2),
      registered (Option.isNone_iff_eq_none.mp unregistered)⟩
  · obtain ⟨body, isEnum, found⟩ := elements' u (by simp [enums])
    rw [isEnum] at hasX
    obtain ⟨e, isX⟩ := Option.isSome_iff_exists.mp hasX
    obtain ⟨own, across⟩ := found "X" e isX
    rw [nameE] at own across
    exact ⟨e, across, own⟩

end Session

end IdlGen
