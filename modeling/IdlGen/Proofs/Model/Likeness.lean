import IdlGen.Proofs.Model.Building
import IdlGen.Proofs.Types.Likeness

/-!
# Models that are alike

Fields, functions and services are only ever shown, so they are alike when they show the same. The
constants, elements and types of a model can be asked for by name, and then their stamps matter:
there the pairing of stamps comes in. Models that are alike have the same view, and in sets with
models that are alike a name leads to symbols that are alike, or to none on either side. So a
declaration is accepted in both, or refused in both for the same reason.
-/

namespace IdlGen

variable {R : Pairing}

theorem find?_rel {α β : Type} {S : α → β → Prop} {p : α → Bool} {q : β → Bool} {as : List α}
    {bs : List β} (items : List.Forall₂ S as bs) (each : ∀ a b, S a b → q b = p a) :
    Option.Rel S (as.find? p) (bs.find? q) := by
  induction items with
  | nil => exact .none
  | @cons a b _ _ first _ ih =>
      rw [List.find?_cons, List.find?_cons, each _ _ first]
      cases p a with
      | true => exact .some first
      | false => exact ih

theorem filterMap_eq_of_forall₂ {α β γ : Type} {S : α → β → Prop} {f : α → Option γ}
    {g : β → Option γ} {as : List α} {bs : List β} (items : List.Forall₂ S as bs)
    (each : ∀ a b, S a b → g b = f a) : bs.filterMap g = as.filterMap f := by
  induction items with
  | nil => rfl
  | cons first _ ih => rw [List.filterMap_cons, List.filterMap_cons, each _ _ first, ih]

theorem related_map {α β γ δ : Type} {S : α → β → Prop} {T : γ → δ → Prop} {f : α → γ}
    {g : β → δ} {x : Option α} {y : Option β} (related : Option.Rel S x y)
    (each : ∀ a b, S a b → T (f a) (g b)) : Option.Rel T (x.map f) (y.map g) := by
  cases related with
  | none => exact .none
  | some item => exact .some (each _ _ item)

theorem related_or {α β : Type} {S : α → β → Prop} {x x' : Option α} {y y' : Option β}
    (first : Option.Rel S x y) (second : Option.Rel S x' y') :
    Option.Rel S (x.or x') (y.or y') := by
  cases first with
  | none => exact second
  | some item => exact .some item

theorem related_bind {α β γ δ : Type} {S : α → β → Prop} {T : γ → δ → Prop} {f : α → Option γ}
    {g : β → Option δ} {x : Option α} {y : Option β} (related : Option.Rel S x y)
    (each : ∀ a b, S a b → Option.Rel T (f a) (g b)) : Option.Rel T (x.bind f) (y.bind g) := by
  cases related with
  | none => exact .none
  | some item => exact each _ _ item

theorem exists_of_related {α β : Type} {S : α → β → Prop} {a : α} {y : Option β}
    (related : Option.Rel S (some a) y) : ∃ b, y = some b ∧ S a b := by
  cases related with
  | some item => exact ⟨_, rfl, item⟩

theorem eq_none_of_related {α β : Type} {S : α → β → Prop} {y : Option β}
    (related : Option.Rel S none y) : y = none := by
  cases related
  rfl

theorem isSome_of_related {α β : Type} {S : α → β → Prop} {x : Option α} {y : Option β}
    (related : Option.Rel S x y) : y.isSome = x.isSome := by
  cases related <;> rfl

structure Field.Alike (f f' : Field Ty) : Prop where
  id : f'.id = f.id
  name : f'.name = f.name
  type : f.type.Like .any f'.type
  view : View.field f' = View.field f

structure FieldSet.Alike (s s' : FieldSet Ty) : Prop where
  owner : s'.owner = s.owner
  fields : List.Forall₂ Field.Alike s.fields s'.fields

theorem Ty.Like.forget {t t' : Ty} (like : t.Like R t') : t.Like .any t' :=
  like.mono fun _ _ _ => trivial

/-- Fields that are written alike are alike, or refused for the same reason. -/
theorem Field.ofLiteral_alike (one : R.OneToOne) {id : Int} {name : String} {t t' : Ty}
    {required : Bool} {lit lit' : Option Literal} {notes : Annotations} {docs : Docs}
    (type : t.Like R t') (default : Option.Rel (Literal.Like R) lit lit') :
    Agree Field.Alike (Field.ofLiteral id name t required lit notes docs)
      (Field.ofLiteral id name t' required lit' notes docs) := by
  cases default with
  | none =>
      refine .ok ⟨rfl, rfl, type.forget, ?_⟩
      simp only [View.field, type.view]
  | some given =>
      have value : Agree (fun v v' : Option Value => v'.map View.value = v.map View.value)
          ((t.check _).map some) ((t'.check _).map some) :=
        (type.check one given).map fun _ _ value => congrArg some value.view
      refine .bind value fun v v' view => .ok ⟨rfl, rfl, type.forget, ?_⟩
      simp only [View.field, type.view, view]

namespace FieldSet.Alike

variable {s s' : FieldSet Ty}

@[simp] theorem nil (owner : String) : FieldSet.Alike ⟨owner, []⟩ ⟨owner, []⟩ := ⟨rfl, .nil⟩

theorem view (alike : s.Alike s') : View.fields s' = View.fields s :=
  congrArg Tree.list (map_eq_of_forall₂ alike.fields fun _ _ field => field.view)

theorem add (alike : s.Alike s') {f f' : Field Ty} (field : f.Alike f') :
    Agree FieldSet.Alike (s.add f) (s'.add f') := by
  have ids : s'.fields.any (·.id = f'.id) = s.fields.any (·.id = f.id) :=
    any_eq_of_forall₂ alike.fields fun _ _ item => by rw [item.id, field.id]
  have names : s'.fields.any (·.name = f'.name) = s.fields.any (·.name = f.name) :=
    any_eq_of_forall₂ alike.fields fun _ _ item => by rw [item.name, field.name]
  unfold FieldSet.add
  rw [ids, names, alike.owner, field.id, field.name]
  cases s.fields.any (·.id = f.id) with
  | true => exact .error _
  | false =>
      cases s.fields.any (·.name = f.name) with
      | true => exact .error _
      | false => exact .ok ⟨rfl, List.rel_append alike.fields (.cons field .nil)⟩

end FieldSet.Alike

structure Function.Alike (f f' : Function) : Prop where
  name : f'.name = f.name
  view : View.function f' = View.function f

theorem Function.alike_mk {name : String} {t t' : Ty} {oneway : Bool}
    {args args' throws throws' : FieldSet Ty} {docs : Docs} (result : t.Like R t')
    (argsAlike : args.Alike args') (throwsAlike : throws.Alike throws') :
    Function.Alike ⟨name, t, oneway, args, throws, docs⟩ ⟨name, t', oneway, args', throws', docs⟩ :=
  ⟨rfl, by simp only [View.function, result.view, argsAlike.view, throwsAlike.view]⟩

structure ServiceBody.Alike (b b' : ServiceBody) : Prop where
  model : b'.model = b.model
  name : b'.name = b.name
  functions : List.Forall₂ Function.Alike b.functions b'.functions
  docs : b'.docs = b.docs

namespace ServiceBody.Alike

variable {b b' : ServiceBody}

theorem qname (alike : b.Alike b') : b'.qname = b.qname := by
  rw [ServiceBody.qname, ServiceBody.qname, alike.model, alike.name]

theorem addFunction (alike : b.Alike b') {f f' : Function} (function : f.Alike f') :
    Agree ServiceBody.Alike (b.addFunction f) (b'.addFunction f') := by
  have names : b'.functions.any (·.name = f'.name) = b.functions.any (·.name = f.name) :=
    any_eq_of_forall₂ alike.functions fun _ _ item => by rw [item.name, function.name]
  unfold ServiceBody.addFunction
  rw [names, alike.qname, function.name]
  cases b.functions.any (·.name = f.name) with
  | true => exact .error _
  | false =>
      have functions := List.rel_append alike.functions (.cons function .nil)
      exact .ok { alike with functions }

end ServiceBody.Alike

structure Service.Alike (s s' : Service) : Prop where
  name : s'.name = s.name
  qname : s'.qname = s.qname
  functions : s'.functions.map View.function = s.functions.map View.function
  view : View.service s' = View.service s

theorem Service.make_alike {b b' : ServiceBody} {parent parent' : Option Service}
    (body : b.Alike b') (parents : Option.Rel Service.Alike parent parent') :
    (make b parent).Alike (make b' parent') := by
  have own : b'.functions.map View.function = b.functions.map View.function :=
    map_eq_of_forall₂ body.functions fun _ _ function => function.view
  have functions : (make b' parent').functions.map View.function =
      (make b parent).functions.map View.function := by
    cases parents with
    | none => exact own
    | some above => simp only [make, Service.functions, List.map_append, above.functions, own]
  have extended : (make b' parent').parent?.map (·.qname) =
      (make b parent).parent?.map (·.qname) := by
    cases parents with
    | none => rfl
    | some above => exact congrArg some above.qname
  refine ⟨?_, ?_, functions, ?_⟩
  · rw [Service.name, Service.name, body_make, body_make, body.name]
  · rw [Service.qname, Service.qname, body_make, body_make, body.qname]
  · rw [View.service, View.service, functions, extended, Service.name, Service.name, Service.qname,
      Service.qname, body_make, body_make, body.name, body.qname, body.docs, own]

structure Model.Like (R : Pairing) (m m' : Model) : Prop where
  name : m'.name = m.name
  includes : m'.includes = m.includes
  namespaces : m'.namespaces = m.namespaces
  consts : List.Forall₂ (Constant.Like R) m.consts m'.consts
  elements : List.Forall₂ (fun e e' => e'.1 = e.1 ∧ e.2.Like R e'.2) m.elements m'.elements
  enums : List.Forall₂ (Ty.Like R) m.enums m'.enums
  structs : List.Forall₂ (Ty.Like R) m.structs m'.structs
  exceptions : List.Forall₂ (Ty.Like R) m.exceptions m'.exceptions
  services : List.Forall₂ Service.Alike m.services m'.services

theorem Ty.Like.enumeration?_view {t t' : Ty} (like : t.Like R t') :
    View.enumeration? t' = View.enumeration? t := by
  cases like with
  | enum _ body =>
      let view (e : EnumElement) : Tree :=
        .object [("name", View.text e.name), ("value", .int e.value)]
      have elements : List.map view _ = List.map view _ :=
        map_eq_of_forall₂ body.elements fun _ _ element => by
          simp only [view, element.name, element.value]
      simp only [View.enumeration?, Ty.enumeration?, Option.map_some, body.docs]
      rw [elements]
      rfl
  | _ => rfl

theorem Ty.Like.record?_view {t t' : Ty} (like : t.Like R t') :
    View.record? t' = View.record? t := by
  cases like with
  | record _ body =>
      simp only [View.record?, Ty.record?, Option.map_some, body.fields, body.isUnion,
        body.annotations, body.docs]
      rfl
  | _ => rfl

namespace Model.Like

variable {m m' : Model}

@[simp] theorem nil (name : Option String) : Model.Like R { name } { name } :=
  ⟨rfl, rfl, rfl, .nil, .nil, .nil, .nil, .nil, .nil⟩

theorem mono {R' : Pairing} (wider : ∀ a b, R a b → R' a b) (like : m.Like R m') : m.Like R' m' :=
  { like with
    consts := like.consts.imp fun _ _ constant => constant.mono wider
    elements := like.elements.imp fun _ _ entry => entry.imp_right (EnumElement.Like.mono wider)
    enums := like.enums.imp fun _ _ type => type.mono wider
    structs := like.structs.imp fun _ _ type => type.mono wider
    exceptions := like.exceptions.imp fun _ _ type => type.mono wider }

theorem qname (like : m.Like R m') (name : String) : m'.qname name = m.qname name := by
  rw [Model.qname, Model.qname, like.name]

/-- A view does not show stamps. -/
theorem view (like : m.Like R m') : View.model m' = View.model m := by
  have unions := List.rel_filter (p := (·.isUnion)) (q := (·.isUnion))
    (fun _ _ type => by simp [Ty.Like.isUnion type]) like.structs
  have others := List.rel_filter (p := (!·.isUnion)) (q := (!·.isUnion))
    (fun _ _ type => by simp [Ty.Like.isUnion type]) like.structs
  simp only [View.model, like.name, like.includes, like.namespaces,
    map_eq_of_forall₂ like.consts fun _ _ constant => constant.view,
    filterMap_eq_of_forall₂ like.enums fun _ _ type => type.enumeration?_view,
    filterMap_eq_of_forall₂ others fun _ _ type => Ty.Like.record?_view type,
    filterMap_eq_of_forall₂ unions fun _ _ type => Ty.Like.record?_view type,
    filterMap_eq_of_forall₂ like.exceptions fun _ _ type => type.record?_view,
    map_eq_of_forall₂ like.services fun _ _ service => service.view]

theorem addInclude (like : m.Like R m') (name : String) :
    (m.addInclude name).Like R (m'.addInclude name) := by
  unfold Model.addInclude
  rw [like.includes]
  split
  · exact like
  · exact { like with includes := rfl }

theorem addNamespace (like : m.Like R m') (ns : Namespace) :
    Agree (fun a b => a.name = m.name ∧ a.Like R b) (m.addNamespace ns) (m'.addNamespace ns) := by
  unfold Model.addNamespace
  rw [like.namespaces]
  split
  · exact .error _
  · exact .ok ⟨rfl, { like with namespaces := rfl }⟩

end Model.Like

inductive Symbol.Like (R : Pairing) : Symbol → Symbol → Prop
  | const {c c' : Constant} (constant : c.Like R c') : Symbol.Like R (.const c) (.const c')
  | element {e e' : EnumElement} (element : e.Like R e') : Symbol.Like R (.element e) (.element e')
  | enum {t t' : Ty} (type : t.Like R t') : Symbol.Like R (.enum t) (.enum t')
  | struct {t t' : Ty} (type : t.Like R t') : Symbol.Like R (.struct t) (.struct t')
  | exception {t t' : Ty} (type : t.Like R t') : Symbol.Like R (.exception t) (.exception t')
  | service {s s' : Service} (service : s.Alike s') : Symbol.Like R (.service s) (.service s')

namespace Symbol.Like

variable {s s' : Symbol}

theorem kind (like : s.Like R s') : s'.kind = s.kind := by
  cases like with
  | struct type => rw [Symbol.kind, Symbol.kind, type.isUnion]
  | _ => rfl

theorem qname (like : s.Like R s') : s'.qname = s.qname := by
  cases like with
  | const constant => exact constant.qname
  | element element => exact element.qname
  | enum type | struct type | exception type => exact type.qname
  | service service => exact service.qname

theorem render (like : s.Like R s') : s'.render = s.render := by
  rw [Symbol.render, Symbol.render, like.kind, like.qname]

end Symbol.Like

namespace Model.Like

variable {m m' : Model}

/-- What a model itself declares under a name. -/
theorem declared? (like : m.Like R m') (name : String) :
    Option.Rel (Symbol.Like R) (m.declared? name) (m'.declared? name) := by
  have named {ts ts' : List Ty} (types : List.Forall₂ (Ty.Like R) ts ts') :
      Option.Rel (Ty.Like R) (ts.find? (·.name = name)) (ts'.find? (·.name = name)) :=
    find?_rel types fun _ _ type => by rw [type.name]
  unfold Model.declared?
  refine related_or ?_ (related_or ?_ (related_or ?_ (related_or ?_ (related_or ?_ ?_))))
  · refine related_map (find?_rel like.consts fun _ _ constant => ?_) fun _ _ => .const
    rw [constant.name]
  · refine related_map ?_ fun _ _ => .element
    refine related_map (find?_rel (List.rel_reverse like.elements) fun _ _ entry => ?_)
      fun _ _ entry => entry.2
    rw [entry.1]
  · exact related_map (named like.enums) fun _ _ => .enum
  · exact related_map (named like.structs) fun _ _ => .struct
  · exact related_map (named like.exceptions) fun _ _ => .exception
  · refine related_map (find?_rel like.services fun _ _ service => ?_) fun _ _ => .service
    rw [service.name]

end Model.Like

namespace ModelSet

variable {s s' : ModelSet}

theorem model?_like (models : List.Forall₂ (Model.Like R) s.models s'.models) (name : String) :
    Option.Rel (Model.Like R) (s.model? name) (s'.model? name) :=
  find?_rel (List.rel_reverse models) fun _ _ model => by rw [model.name]

theorem isLoaded_like (models : List.Forall₂ (Model.Like R) s.models s'.models) (name : String) :
    s'.isLoaded name = s.isLoaded name := by
  unfold isLoaded
  exact isSome_of_related (model?_like models name)

end ModelSet

/-- A name that the model does not declare is looked up behind its first point. -/
theorem Model.lookupChars_of_missing {m : Model} {s : ModelSet} {name : List Char}
    (missing : m.declared? (String.ofList name) = none) :
    m.lookupChars s name = (splitAtPoint? name).bind fun parts =>
      if m.name = some (String.ofList parts.1) then m.lookupChars s parts.2
      else (s.model? (String.ofList parts.1)).bind (·.lookupChars s parts.2) := by
  rw [lookupChars, missing]
  dsimp only
  split
  · rename_i noPoint
    rw [noPoint]
    rfl
  · rename_i point
    rw [point, Option.bind_some]
    congr 1
    cases s.model? _ <;> rfl

namespace Model.Like

variable {m m' : Model} {s s' : ModelSet}

/-- A name leads to symbols that are alike, through any number of models. -/
theorem lookupChars (models : List.Forall₂ (Model.Like R) s.models s'.models) {name : List Char}
    (like : m.Like R m') :
    Option.Rel (Symbol.Like R) (m.lookupChars s name) (m'.lookupChars s' name) := by
  induction size : name.length using Nat.strongRecOn generalizing name m m' with
  | ind length ih =>
      have declared := like.declared? (String.ofList name)
      cases found : m.declared? (String.ofList name) with
      | some symbol =>
          obtain ⟨symbol', found', alike⟩ := exists_of_related (found ▸ declared)
          rw [Model.lookupChars, found, Model.lookupChars, found']
          exact .some alike
      | none =>
          have missing := eq_none_of_related (found ▸ declared)
          rw [lookupChars_of_missing found, lookupChars_of_missing missing]
          cases point : splitAtPoint? name with
          | none => exact .none
          | some parts =>
              obtain ⟨front, rest⟩ := parts
              have shorter : rest.length < length := size ▸ splitAtPoint?_length point
              simp only [Option.bind_some, like.name]
              split
              · exact ih _ shorter like rfl
              · exact related_bind (ModelSet.model?_like models _) fun _ _ other =>
                  ih _ shorter other rfl

theorem lookup (models : List.Forall₂ (Model.Like R) s.models s'.models) (like : m.Like R m')
    (name : String) : Option.Rel (Symbol.Like R) (m.lookup s name) (m'.lookup s' name) :=
  like.lookupChars models

theorem lookupService (models : List.Forall₂ (Model.Like R) s.models s'.models)
    (like : m.Like R m') (name : String) :
    Agree Service.Alike (m.lookupService s name) (m'.lookupService s' name) := by
  have found := like.lookup models name
  unfold Model.lookupService
  generalize m.lookup s name = x at found
  generalize m'.lookup s' name = y at found
  cases found with
  | none => exact .error _
  | some symbol =>
      have render := symbol.render
      cases symbol with
      | service service => exact .ok service
      | _ =>
          dsimp only
          rw [render]
          exact .error _

/-- A name is free on both sides, or taken on both by symbols that render alike. -/
theorem checkNew (models : List.Forall₂ (Model.Like R) s.models s'.models) (like : m.Like R m')
    (name : String) : m'.checkNew s' name = m.checkNew s name := by
  have found := like.lookup models name
  unfold Model.checkNew
  generalize m.lookup s name = x at found
  generalize m'.lookup s' name = y at found
  cases found with
  | none => rfl
  | some symbol =>
      dsimp only
      rw [symbol.render]

theorem addConst (models : List.Forall₂ (Model.Like R) s.models s'.models) (like : m.Like R m')
    {c c' : Constant} (constant : c.Like R c') :
    Agree (fun a b => a.name = m.name ∧ a.Like R b) (m.addConst s c) (m'.addConst s' c') := by
  unfold Model.addConst
  rw [constant.name, like.checkNew models]
  refine .bind (.self _) fun _ _ _ => .ok ⟨rfl, ?_⟩
  exact { like with consts := List.rel_append like.consts (.cons constant .nil) }

theorem addService (models : List.Forall₂ (Model.Like R) s.models s'.models) (like : m.Like R m')
    {v v' : Service} (service : v.Alike v') :
    Agree (fun a b => a.name = m.name ∧ a.Like R b) (m.addService s v) (m'.addService s' v') := by
  unfold Model.addService
  rw [service.name, like.checkNew models]
  refine .bind (.self _) fun _ _ _ => .ok ⟨rfl, ?_⟩
  exact { like with services := List.rel_append like.services (.cons service .nil) }

end Model.Like

end IdlGen
