import IdlGen.Proofs.Model.Additions
import IdlGen.Proofs.Model.Order

/-!
# The names of a model

A model keeps its declarations in five tables, one for each kind, and the elements of its
enumerations in a sixth. A lookup goes through the tables in a fixed order, and the type of a
declaration is registered in the middle of adding it. Still the tables act as one map: as long as
declared names hold no point, no two declarations have the same name, a name without a point means
its declaration in every set, and an element is found behind the name of its enumeration.
-/

namespace IdlGen

/-- The name holds no point, so no other model can be meant by its front. -/
def PointFree (name : String) : Prop := '.' ∉ name.toList

instance (name : String) : Decidable (PointFree name) := inferInstanceAs (Decidable (¬ _))

@[simp]
theorem splitAtPoint?_eq_none {cs : List Char} (free : '.' ∉ cs) : splitAtPoint? cs = none := by
  induction cs with
  | nil => rfl
  | cons c cs ih =>
      obtain ⟨other, rest⟩ := not_or.mp (mt List.mem_cons.mpr free)
      rw [splitAtPoint?, if_neg (Ne.symm other), ih rest, Option.map_none]

@[simp] theorem splitAtPoint?_append {front : List Char} (free : '.' ∉ front) (rest : List Char) :
    splitAtPoint? (front ++ '.' :: rest) = some (front, rest) := by
  induction front with
  | nil => rfl
  | cons c front ih =>
      obtain ⟨other, inFront⟩ := not_or.mp (mt List.mem_cons.mpr free)
      rw [List.cons_append, splitAtPoint?, if_neg (Ne.symm other), ih inFront, Option.map_some]

theorem toList_pointed (front rest : String) :
    (front ++ "." ++ rest).toList = front.toList ++ '.' :: rest.toList := by
  simp

/-- A name is put together in one way only, if its front holds no point. -/
theorem pointed_inj {front front' rest rest' : String} (free : PointFree front)
    (free' : PointFree front') (same : front ++ "." ++ rest = front' ++ "." ++ rest') :
    front = front' ∧ rest = rest' := by
  have split : splitAtPoint? (front.toList ++ '.' :: rest.toList) =
      splitAtPoint? (front'.toList ++ '.' :: rest'.toList) := by
    rw [← toList_pointed, ← toList_pointed, same]
  rw [splitAtPoint?_append free, splitAtPoint?_append free'] at split
  obtain ⟨fronts, rests⟩ := Prod.mk.inj (Option.some.inj split)
  exact ⟨String.toList_inj.mp fronts, String.toList_inj.mp rests⟩

/-- The name as declared. -/
def Symbol.name : Symbol → String
  | const c => c.name
  | element e => e.name
  | enum t => t.name
  | struct t => t.name
  | exception t => t.name
  | service v => v.name

/-- The elements of an enumeration under the names that its model knows them by. -/
def Ty.keyedElements (t : Ty) : List (String × EnumElement) :=
  ((t.enumeration?.map (·.elements)).getD []).map fun e => (t.name ++ "." ++ e.name, e)

/-- The symbol of a declaration, whose type takes this stamp and belongs to this model. -/
def Declaration.symbol (stamp : Nat) (model : Option String) : Declaration → Symbol
  | const c => .const c
  | enum name body => .enum (.enum stamp model name body)
  | record true name body => .exception (.record stamp true model name body)
  | record false name body => .struct (.record stamp false model name body)
  | service v => .service v

@[simp] theorem Declaration.name_symbol (d : Declaration) (stamp : Nat) (model : Option String) :
    (d.symbol stamp model).name = d.name := by
  cases d with
  | record isException => cases isException <;> rfl
  | _ => rfl

namespace Model

variable {m : Model} {s : ModelSet} {n : String}

/-- What a model declares, without the elements of its enumerations. -/
def declarations (m : Model) : List Symbol :=
  m.consts.map .const ++ m.enums.map .enum ++ m.structs.map .struct ++
    m.exceptions.map .exception ++ m.services.map .service

/-- A declaration adds its symbol and no other. -/
theorem declarations_push (d : Declaration) (stamp : Nat) :
    (d.push stamp m).declarations.Perm (d.symbol stamp m.name :: m.declarations) := by
  have behind {symbol : Symbol} {xs ys : List Symbol} (front : List Symbol)
      (h : xs.Perm (symbol :: ys)) : (front ++ xs).Perm (symbol :: (front ++ ys)) :=
    (h.append_left front).trans List.perm_middle
  have added {α : Type} (f : α → Symbol) (xs : List α) (x : α) (rest : List Symbol) :
      ((xs ++ [x]).map f ++ rest).Perm (f x :: (xs.map f ++ rest)) := by
    rw [List.map_append, List.append_assoc]
    exact List.perm_middle
  simp only [declarations, List.append_assoc]
  cases d with
  | const c => exact added _ _ _ _
  | enum name body => exact behind _ (added _ _ _ _)
  | record isException name body =>
      cases isException with
      | false => exact behind _ (behind _ (added _ _ _ _))
      | true => exact behind _ (behind _ (behind _ (added _ _ _ _)))
  | service v =>
      refine behind _ (behind _ (behind _ (behind _ ?_)))
      change ((m.services ++ [v]).map Symbol.service).Perm _
      rw [List.map_append]
      exact List.perm_append_singleton _ _

theorem declared?_of_element?_eq_none (free : m.element? n = none) :
    m.declared? n = m.declarations.find? (·.name = n) := by
  simp only [declared?, declarations, free, List.find?_append, List.find?_map, Option.map_none,
    Option.none_or, Option.or_assoc]
  rfl

theorem declared?_of_element?_eq_some {e : EnumElement} (found : m.element? n = some e)
    (noConst : ∀ c ∈ m.consts, c.name ≠ n) : m.declared? n = some (.element e) := by
  have consts : m.consts.find? (·.name = n) = none := by simpa using noConst
  simp [declared?, consts, found]

theorem lookup_of_declared? {symbol : Symbol} (h : m.declared? n = some symbol) (s : ModelSet) :
    m.lookup s n = some symbol := by
  rw [lookup, lookupChars, String.ofList_toList, h]

/-- A name without a point is not looked for in other models. -/
theorem lookup_of_pointFree (free : PointFree n) (s : ModelSet) :
    m.lookup s n = m.declared? n := by
  rw [lookup, lookupChars, String.ofList_toList]
  cases m.declared? n with
  | some symbol => rfl
  | none =>
      dsimp only
      split
      · rfl
      · rename_i split
        rw [splitAtPoint?_eq_none free] at split
        cases split

theorem lookup_of_checkNew (h : m.checkNew s n = .ok ()) : m.lookup s n = none := by
  unfold checkNew at h
  split at h
  · cases h
  · assumption

/-- The tables of the model act as one. -/
structure Flat (m : Model) : Prop where
  distinct : (m.declarations.map Symbol.name).Nodup
  pointFree : ∀ symbol ∈ m.declarations, PointFree symbol.name
  /-- The elements are those of the enumerations, each behind the name of its enumeration. -/
  elements : m.elements = m.enums.flatMap Ty.keyedElements
  bodies : ∀ t ∈ m.enums, ∃ body, t.enumeration? = some body ∧
    (body.elements.map (·.name)).Nodup

namespace Flat

@[simp] theorem mem_keyedElements {t : Ty} {k : String} {e : EnumElement} :
    (k, e) ∈ t.keyedElements ↔
      ∃ body, t.enumeration? = some body ∧ e ∈ body.elements ∧ k = t.name ++ "." ++ e.name := by
  unfold Ty.keyedElements
  cases t.enumeration? with
  | none => simp
  | some body => simp [eq_comm, and_comm]

theorem mem_elements (flat : m.Flat) {k : String} {e : EnumElement} :
    (k, e) ∈ m.elements ↔ ∃ t ∈ m.enums, (k, e) ∈ t.keyedElements := by
  rw [flat.elements, List.mem_flatMap]

theorem pointFree_enum (flat : m.Flat) {t : Ty} (member : t ∈ m.enums) : PointFree t.name :=
  flat.pointFree (.enum t) (by simp [declarations, member])

theorem enums_distinct (flat : m.Flat) : (m.enums.map Ty.name).Nodup := by
  have part : (m.enums.map Symbol.enum).Sublist m.declarations := by
    simp only [declarations, List.append_assoc]
    exact (List.sublist_append_left _ _).trans (List.sublist_append_right _ _)
  have names := flat.distinct.sublist (part.map Symbol.name)
  rwa [List.map_map] at names

theorem keys_distinct (flat : m.Flat) {t : Ty} (member : t ∈ m.enums) :
    (t.keyedElements.map (·.1)).Nodup := by
  obtain ⟨body, isEnum, distinct⟩ := flat.bodies t member
  have keys : t.keyedElements.map (·.1) =
      (body.elements.map (·.name)).map (t.name ++ "." ++ ·) := by
    simp [Ty.keyedElements, isEnum, Function.comp_def]
  have free := flat.pointFree_enum member
  rw [keys]
  exact distinct.map fun _ _ same => (pointed_inj free free same).2

/-- No two elements have the same name, because the front of a name tells their enumeration. -/
theorem elements_distinct (flat : m.Flat) : (m.elements.map (·.1)).Nodup := by
  rw [flat.elements, List.map_flatMap, List.nodup_flatMap]
  refine ⟨fun t member => flat.keys_distinct member, ?_⟩
  refine (List.pairwise_map.mp flat.enums_distinct).imp_of_mem ?_
  intro t u inEnums inEnums' different k left right
  obtain ⟨x, keyed, rfl⟩ := List.mem_map.mp left
  obtain ⟨y, keyed', same⟩ := List.mem_map.mp right
  obtain ⟨_, _, _, key⟩ := mem_keyedElements.mp keyed
  obtain ⟨_, _, _, key'⟩ := mem_keyedElements.mp keyed'
  have keys : t.name ++ "." ++ x.2.name = u.name ++ "." ++ y.2.name :=
    key.symm.trans (same.symm.trans key')
  exact different
    (pointed_inj (flat.pointFree_enum inEnums) (flat.pointFree_enum inEnums') keys).1

theorem element?_iff (flat : m.Flat) {k : String} {e : EnumElement} :
    m.element? k = some e ↔ (k, e) ∈ m.elements := by
  have distinct : (m.elements.reverse.map (·.1)).Nodup := by
    rw [List.map_reverse]
    exact List.nodup_reverse.mpr flat.elements_distinct
  have found (x : String × EnumElement) :
      m.elements.reverse.find? (·.1 = k) = some x ↔ x ∈ m.elements ∧ x.1 = k := by
    rw [find?_eq_some_iff_of_nodup distinct, List.mem_reverse]
  unfold element?
  constructor
  · intro h
    obtain ⟨x, here, rfl⟩ := Option.map_eq_some_iff.mp h
    obtain ⟨member, rfl⟩ := (found x).mp here
    exact member
  · intro member
    rw [(found (k, e)).mpr ⟨member, rfl⟩]
    rfl

theorem element?_of_pointFree (flat : m.Flat) (free : PointFree n) : m.element? n = none := by
  refine Option.eq_none_iff_forall_ne_some.mpr fun e found => free ?_
  obtain ⟨t, _, keyed⟩ := flat.mem_elements.mp (flat.element?_iff.mp found)
  obtain ⟨body, _, _, rfl⟩ := mem_keyedElements.mp keyed
  simp

/-- A name without a point leads to the declaration of that name. -/
theorem declared?_iff (flat : m.Flat) (free : PointFree n) {symbol : Symbol} :
    m.declared? n = some symbol ↔ symbol ∈ m.declarations ∧ symbol.name = n := by
  rw [declared?_of_element?_eq_none (flat.element?_of_pointFree free)]
  exact find?_eq_some_iff_of_nodup flat.distinct

/-- A declaration is found under its name, in every set. -/
theorem lookup_declaration (flat : m.Flat) {symbol : Symbol} (member : symbol ∈ m.declarations)
    (s : ModelSet) : m.lookup s symbol.name = some symbol := by
  have free := flat.pointFree symbol member
  rw [lookup_of_pointFree free, flat.declared?_iff free]
  exact ⟨member, rfl⟩

/-- Behind the name of an enumeration there is its element, as no constant has such a name. -/
theorem declared?_element (flat : m.Flat) {t : Ty} {body : Enumeration} {a : String}
    {e : EnumElement} (member : t ∈ m.enums) (isEnum : t.enumeration? = some body)
    (found : body.element? a = some e) :
    m.declared? (t.name ++ "." ++ a) = some (.element e) := by
  have named : e.name = a := by simpa using List.find?_some found
  have keyed : (t.name ++ "." ++ a, e) ∈ t.keyedElements :=
    mem_keyedElements.mpr ⟨body, isEnum, List.mem_of_find?_eq_some found, by rw [named]⟩
  refine declared?_of_element?_eq_some (flat.element?_iff.mpr ?_) fun c inConsts same => ?_
  · exact flat.mem_elements.mpr ⟨t, member, keyed⟩
  · have free : PointFree c.name :=
      flat.pointFree (.const c) (by simp [declarations, inConsts])
    rw [same] at free
    exact free (by simp)

@[simp] theorem start (name : Option String) : Model.Flat { name } where
  distinct := .nil
  pointFree := by simp [declarations]
  elements := rfl
  bodies := by simp

theorem push (flat : m.Flat) {d : Declaration} (stamp : Nat) (free : PointFree d.name)
    (fresh : ∀ symbol ∈ m.declarations, symbol.name ≠ d.name)
    (body : ∀ name body, d = .enum name body → (body.elements.map (·.name)).Nodup) :
    (d.push stamp m).Flat where
  distinct := by
    refine ((declarations_push d stamp).map Symbol.name).nodup_iff.mpr ?_
    rw [List.map_cons, List.nodup_cons, d.name_symbol]
    exact ⟨fun taken => (List.mem_map.mp taken).elim fun symbol here => fresh symbol here.1 here.2,
      flat.distinct⟩
  pointFree := by
    intro symbol member
    rcases List.mem_cons.mp ((declarations_push d stamp).mem_iff.mp member) with rfl | old
    · rwa [d.name_symbol]
    · exact flat.pointFree symbol old
  elements := by
    cases d with
    | enum name body =>
        simp only [Declaration.push, flat.elements, List.flatMap_append, List.flatMap_singleton]
        rfl
    | record isException => cases isException <;> exact flat.elements
    | _ => exact flat.elements
  bodies := by
    cases d with
    | enum name body' =>
        exact forall_mem_concat flat.bodies ⟨body', rfl, body name body' rfl⟩
    | record isException => cases isException <;> exact flat.bodies
    | _ => exact flat.bodies

end Flat

/-- Additions of point-free names to a flat model keep it flat, whatever set they are checked
against. -/
theorem BuiltBy.flat (built : m.BuiltBy (Declaration.Named PointFree fun _ => True)) : m.Flat := by
  refine built.rec_add Flat.start (fun _ _ flat => ⟨flat.1, flat.2, flat.3, flat.4⟩) ?_
  intro m s d ⟨free, body⟩ flat checked
  refine flat.push _ free ?_ ?_
  · intro symbol member name
    -- The check is a lookup, which stays in the model because the name holds no point.
    have unknown : m.declared? d.name = none :=
      (lookup_of_pointFree free s).symm.trans (lookup_of_checkNew checked)
    rw [(flat.declared?_iff free).mpr ⟨member, name⟩] at unknown
    cases unknown
  · intro name body' isEnum
    obtain ⟨b, reached, rfl⟩ := body name body' isEnum
    exact reached.elements.1

/-- The names of a model that calls built are one space. No two declarations share a name; a name
without a point means the declaration of that name and nothing else, in every set; an element is
found behind the name of its enumeration. A further call does what adding a declaration gives, and
if it fails, model and set are as they were. -/
theorem names_form_one_space (built : m.BuiltBy (Declaration.Named PointFree fun _ => True)) :
    (m.declarations.map Symbol.name).Nodup ∧
      (∀ s n, PointFree n → ∀ symbol,
        m.lookup s n = some symbol ↔ symbol ∈ m.declarations ∧ symbol.name = n) ∧
      (∀ s, ∀ t ∈ m.enums, ∃ body, t.enumeration? = some body ∧
        ∀ a e, body.element? a = some e →
          m.lookup s (t.name ++ "." ++ a) = some (.element e)) ∧
      ∀ s (d : Declaration),
        (∀ m' s', d.add s m = .ok (m', s') → d.perform.exec ⟨m, s⟩ = (.ok (), ⟨m', s'⟩)) ∧
        ∀ e, d.add s m = .error e → d.perform.exec ⟨m, s⟩ = (.error e, ⟨m, s⟩) := by
  have flat := built.flat
  refine ⟨flat.distinct, fun s n free symbol => ?_, fun s t member => ?_, fun s d =>
    ⟨fun _ _ => d.perform_of_ok, fun _ => d.perform_of_error⟩⟩
  · rw [lookup_of_pointFree free, flat.declared?_iff free]
  · obtain ⟨body, isEnum, _⟩ := flat.bodies t member
    exact ⟨body, isEnum, fun a e found =>
      lookup_of_declared? (flat.declared?_element member isEnum found) s⟩

/-- An enumeration, a struct that is refused because it has the same name, and a constant. -/
theorem names_form_one_space_after_refusal :
    let round : EnumElement := ⟨0, "m.Kind", "round", 0⟩
    let kind : Declaration := .enum "Kind" ⟨0, [round], none⟩
    let again : Declaration := .record false "Kind" ⟨⟨"m.Kind", []⟩, false, [], none⟩
    let side : Declaration := .const ⟨some "m", "side", .prim .bool, .bool true, none⟩
    let first := (kind.perform.exec ⟨{ name := some "m" }, .empty⟩).2
    let last := (side.perform.exec (again.perform.exec first).2).2
    (∃ e, again.perform.exec first = (.error e, first)) ∧
      last.model.declarations.map Symbol.name = ["side", "Kind"] ∧
      last.model.lookup .empty "Kind.round" = some (.element round) := by
  intro round kind again side first last
  have reached : EnumBuilder.Reached (fun _ => True) ⟨0, "m.Kind", [round], 1, none⟩ :=
    .addWithId (.new 0 "m.Kind" none) trivial rfl
  have built : first.model.BuiltBy (Declaration.Named PointFree fun _ => True) := by
    refine .call (.start (some "m")) .empty kind ⟨by decide, fun name body same => ?_⟩
    exact ⟨_, reached, (Declaration.enum.inj same).2⟩
  have built' : last.model.BuiltBy (Declaration.Named PointFree fun _ => True) :=
    (built.call first.set again ⟨by decide, by simp [again]⟩).call _ side
      ⟨by decide, by simp [side]⟩
  have refused : (again.add first.set first.model).toOption.isNone = true := by decide +kernel
  have kinds : last.model.enums.map (fun t => (t.name, t.enumeration?)) =
      [("Kind", some ⟨0, [round], none⟩)] := by decide +kernel
  obtain ⟨t, enums, isKind⟩ := List.map_eq_singleton_iff.mp kinds
  obtain ⟨name, isEnum⟩ := Prod.mk.inj isKind
  refine ⟨?_, by decide +kernel, ?_⟩
  · cases added : again.add first.set first.model with
    | ok out => simp [added, Except.toOption] at refused
    | error e => exact ⟨e, ((names_form_one_space built).2.2.2 first.set again).2 e added⟩
  · obtain ⟨body, isBody, elements⟩ :=
      (names_form_one_space built').2.2.1 .empty t (by rw [enums]; exact List.mem_singleton_self t)
    cases isEnum.symm.trans isBody
    rw [name] at elements
    exact elements "round" round rfl

end Model

end IdlGen
