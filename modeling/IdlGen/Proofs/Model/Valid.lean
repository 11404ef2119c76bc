import IdlGen.Model.Lookup
import IdlGen.Proofs.Types.Constants
import Mathlib.Data.List.Nodup

/-!
# Valid models

What a model promises to those who generate code from it: values have been checked against their
types, `void` stands for the result of a function and for nothing else, one-way functions have no
result, only exceptions are thrown, and ids and names are distinct wherever they have to be. A set
is valid when all of its models are and when `void` is in none of its types.

Validity is relative to a space of types, in which a stamp stands for one type. The space of a set
has more than the registry: a loaded model keeps its types when the model that declares them fails
and takes them out of the registry. So the space only grows, and with it all that is valid stays so.
-/

namespace IdlGen

/-- No part of the type is `void`. -/
def Ty.VoidFree (t : Ty) : Prop := Ty.void ∉ t.parts

/-- The value is what a check against the type has made of some literal. The constants of the
literal were made by checks as well, and their types share the space with the type. -/
structure Ty.Checked (t : Ty) (space : TypeSpace) (v : Value) : Prop where
  member : space.mem t
  literal : ∃ lit : Literal, lit.Built space ∧ t.check lit = .ok v

structure Field.Valid (f : Field Ty) (space : TypeSpace) : Prop where
  type : f.type.VoidFree
  default : ∀ v, f.default = some v → f.type.Checked space v

structure FieldSet.Valid (s : FieldSet Ty) (space : TypeSpace) : Prop where
  fields : ∀ f ∈ s.fields, f.Valid space
  ids : (s.fields.map (·.id)).Nodup
  names : (s.fields.map (·.name)).Nodup

structure Function.Valid (f : Function) (space : TypeSpace) : Prop where
  result : f.result = .void ∨ f.result.VoidFree
  oneway : f.oneway = true → f.result = .void
  args : f.args.Valid space
  throws : f.throws.Valid space
  exceptions : ∀ x ∈ f.throws.fields, x.type.isException = true

structure ServiceBody.Valid (b : ServiceBody) (space : TypeSpace) : Prop where
  functions : ∀ f ∈ b.functions, f.Valid space
  names : (b.functions.map (·.name)).Nodup

/-- A service is valid together with its ancestors. -/
def Service.Valid (space : TypeSpace) : Service → Prop
  | .root body => body.Valid space
  | .derived body parent => body.Valid space ∧ parent.Valid space

structure Constant.Valid (c : Constant) (space : TypeSpace) : Prop where
  type : c.type.VoidFree
  value : c.type.Checked space c.value

structure Model.Valid (m : Model) (space : TypeSpace) : Prop where
  consts : ∀ c ∈ m.consts, c.Valid space
  records : ∀ t ∈ m.structs ++ m.exceptions,
    ∃ body, t.record? = some body ∧ body.fields.Valid space
  services : ∀ v ∈ m.services, v.Valid space

/-- What a name stands for is valid, if it is a value or a service. -/
def Symbol.Valid (space : TypeSpace) : Symbol → Prop
  | .const c => c.Valid space
  | .service v => v.Valid space
  | _ => True

/-- The space has all types of the registry and the models, and none with a stamp to come. -/
structure ModelSet.Valid (s : ModelSet) (space : TypeSpace) : Prop where
  primitives : ∀ p, space.mem (.prim p)
  types : ∀ entry ∈ s.types, entry.2.VoidFree ∧ space.mem entry.2
  stamped : ∀ t k, space.mem t → t.stamp? = some k → k < s.stamps.next
  models : ∀ m ∈ s.models, m.Valid space

section Space

variable {space wider : TypeSpace}

theorem Ty.Checked.mono {t : Ty} {v : Value} (checked : t.Checked space v) (grown : space ≤ wider) :
    t.Checked wider v := by
  obtain ⟨member, lit, built, accepted⟩ := checked
  exact ⟨grown t member, lit, built.mono grown, accepted⟩

/-- A value that was checked is one of the type. -/
theorem Ty.Checked.inhabits {t : Ty} {v : Value} (checked : t.Checked space v) : t.Inhabits v := by
  obtain ⟨member, lit, built, accepted⟩ := checked
  exact .of_check member (fun c inside => (built c inside).sound) accepted

theorem Field.Valid.mono {f : Field Ty} (valid : f.Valid space) (grown : space ≤ wider) :
    f.Valid wider :=
  ⟨valid.type, fun v given => (valid.default v given).mono grown⟩

theorem FieldSet.Valid.mono {s : FieldSet Ty} (valid : s.Valid space) (grown : space ≤ wider) :
    s.Valid wider :=
  ⟨fun f member => (valid.fields f member).mono grown, valid.ids, valid.names⟩

theorem Function.Valid.mono {f : Function} (valid : f.Valid space) (grown : space ≤ wider) :
    f.Valid wider :=
  { valid with args := valid.args.mono grown, throws := valid.throws.mono grown }

theorem ServiceBody.Valid.mono {b : ServiceBody} (valid : b.Valid space) (grown : space ≤ wider) :
    b.Valid wider :=
  ⟨fun f member => (valid.functions f member).mono grown, valid.names⟩

theorem Service.Valid.mono {v : Service} (valid : v.Valid space) (grown : space ≤ wider) :
    v.Valid wider := by
  induction v with
  | root body => exact ServiceBody.Valid.mono valid grown
  | derived body parent ih => exact ⟨valid.1.mono grown, ih valid.2⟩

theorem Constant.Valid.mono {c : Constant} (valid : c.Valid space) (grown : space ≤ wider) :
    c.Valid wider :=
  ⟨valid.type, valid.value.mono grown⟩

theorem Model.Valid.mono {m : Model} (valid : m.Valid space) (grown : space ≤ wider) :
    m.Valid wider where
  consts c member := (valid.consts c member).mono grown
  records t member := by
    obtain ⟨body, isRecord, fields⟩ := valid.records t member
    exact ⟨body, isRecord, fields.mono grown⟩
  services v member := (valid.services v member).mono grown

end Space

namespace Ty

theorem voidFree_of_isNamed {t : Ty} (named : t.isNamed = true) : t.VoidFree := by
  cases t <;> simp_all [VoidFree, isNamed, parts, void]

theorem voidFree_prim {p : Primitive} (visible : p ≠ .void) : (prim p).VoidFree := by
  simpa [VoidFree, parts, void] using visible.symm

theorem voidFree_make {c : Container} {n : Nat} (elements : ∀ e ∈ c.elements, e.VoidFree) :
    (c.make n).VoidFree := by
  cases c <;> simp_all [VoidFree, Container.make, parts, void]

theorem eq_void_of_isVoid {t : Ty} (h : t.isVoid = true) : t = .void := by
  cases t with
  | prim p => cases p <;> simp_all [isVoid, category, Primitive.category, void]
  | record _ isException => cases isException <;> simp_all [isVoid, category]
  | list | set | map | enum => simp_all [isVoid, category]

end Ty

/-- What is added at the end under a new key leaves the keys distinct. -/
theorem nodup_map_concat {α β : Type} [DecidableEq β] {key : α → β} {xs : List α} {x : α}
    (distinct : (xs.map key).Nodup) (fresh : ¬ (xs.any fun y => key y = key x) = true) :
    ((xs ++ [x]).map key).Nodup := by
  rw [List.map_append, List.map_singleton, ← List.concat_eq_append]
  refine distinct.concat fun member => fresh ?_
  obtain ⟨y, listed, same⟩ := List.mem_map.mp member
  exact List.any_eq_true.mpr ⟨y, listed, by simpa using same⟩

theorem forall_mem_concat {α : Type} {P : α → Prop} {xs : List α} {x : α} (old : ∀ y ∈ xs, P y)
    (new : P x) : ∀ y ∈ xs ++ [x], P y := by
  intro y member
  rcases List.mem_append.mp member with before | last
  · exact old y before
  · exact List.mem_singleton.mp last ▸ new

variable {space : TypeSpace}

theorem Literal.built_plain {lit : Literal} (none : lit.constants = []) : lit.Built space := by
  intro c inside
  rw [none] at inside
  exact absurd inside List.not_mem_nil

theorem Literal.built_list {items : List Literal} (each : ∀ item ∈ items, item.Built space) :
    (Literal.list items).Built space := by
  intro c inside
  change c ∈ Literal.constantsOfItems items at inside
  induction items with
  | nil => exact absurd inside List.not_mem_nil
  | cons item items ih =>
      rcases List.mem_append.mp inside with here | later
      · exact each item List.mem_cons_self c here
      · exact ih (fun item member => each item (List.mem_cons_of_mem _ member)) later

theorem Literal.built_map {entries : List (Literal × Literal)}
    (each : ∀ entry ∈ entries, entry.1.Built space ∧ entry.2.Built space) :
    (Literal.map entries).Built space := by
  intro c inside
  change c ∈ Literal.constantsOfEntries entries at inside
  induction entries with
  | nil => exact absurd inside List.not_mem_nil
  | cons entry entries ih =>
      rcases List.mem_append.mp inside with here | later
      · obtain ⟨key, value⟩ := each entry List.mem_cons_self
        rcases List.mem_append.mp here with inKey | inValue
        · exact key c inKey
        · exact value c inValue
      · exact ih (fun entry member => each entry (List.mem_cons_of_mem _ member)) later

theorem Field.valid_ofLiteral {id : Int} {name : String} {type : Ty} {required : Bool}
    {default : Option Literal} {annotations : Annotations} {docs : Docs} {f : Field Ty}
    (voidFree : type.VoidFree) (member : space.mem type)
    (given : ∀ lit, default = some lit → lit.Built space)
    (h : Field.ofLiteral id name type required default annotations docs = .ok f) :
    f.Valid space := by
  unfold Field.ofLiteral at h
  cases default with
  | none =>
      cases h
      exact ⟨voidFree, by simp⟩
  | some lit =>
      obtain ⟨value, mapped, h⟩ := bind_eq_ok h
      cases h
      refine ⟨voidFree, fun v same => ⟨member, lit, given lit rfl, ?_⟩⟩
      cases checked : type.check lit with
      | error e =>
          rw [checked] at mapped
          cases mapped
      | ok w =>
          rw [checked] at mapped
          cases mapped
          exact congrArg _ (Option.some.inj same)

theorem Constant.valid_ofLiteral {model : Option String} {name : String} {type : Ty} {lit : Literal}
    {docs : Docs} {c : Constant} (voidFree : type.VoidFree) (member : space.mem type)
    (given : lit.Built space) (h : Constant.ofLiteral model name type lit docs = .ok c) :
    c.Valid space := by
  obtain ⟨value, checked, h⟩ := bind_eq_ok h
  cases h
  exact ⟨voidFree, member, lit, given, checked⟩

theorem Constant.Valid.built {c : Constant} (valid : c.Valid space) : c.Built space := by
  obtain ⟨member, lit, inner, accepted⟩ := valid.value
  have made : Constant.ofLiteral c.model c.name c.type lit c.docs = .ok c := by
    rw [Constant.ofLiteral, accepted]
    rfl
  exact .intro lit member inner made

@[simp] theorem FieldSet.valid_nil (owner : String) : FieldSet.Valid ⟨owner, []⟩ space :=
  ⟨by simp, by simp, by simp⟩

theorem FieldSet.Valid.add {s s' : FieldSet Ty} {f : Field Ty} (valid : s.Valid space)
    (new : f.Valid space) (h : s.add f = .ok s') : s'.Valid space := by
  unfold FieldSet.add at h
  split at h
  · cases h
  · next freshId =>
      split at h
      · cases h
      · next freshName =>
          cases h
          exact ⟨forall_mem_concat valid.fields new, nodup_map_concat valid.ids freshId,
            nodup_map_concat valid.names freshName⟩

theorem ServiceBody.Valid.addFunction {b b' : ServiceBody} {f : Function} (valid : b.Valid space)
    (new : f.Valid space) (h : b.addFunction f = .ok b') : b'.Valid space := by
  unfold ServiceBody.addFunction at h
  split at h
  · cases h
  · next fresh =>
      cases h
      exact ⟨forall_mem_concat valid.functions new, nodup_map_concat valid.names fresh⟩

theorem Service.valid_make {body : ServiceBody} {parent : Option Service} (valid : body.Valid space)
    (above : ∀ p, parent = some p → p.Valid space) : (Service.make body parent).Valid space := by
  cases parent with
  | none => exact valid
  | some p => exact ⟨valid, above p rfl⟩

namespace ModelSet

variable {s s' : ModelSet} {t : Ty}

theorem mem_types_of_type? {name : String} (found : s.type? name = some t) :
    (name, t) ∈ s.types := by
  obtain ⟨front, back, split, _⟩ := List.lookup_eq_some_iff.mp found
  rw [split]
  exact List.mem_append_right front List.mem_cons_self

theorem mem_models_of_model? {name : String} {m : Model} (found : s.model? name = some m) :
    m ∈ s.models :=
  List.mem_reverse.mp (List.mem_of_find?_eq_some found)

@[simp] theorem valid_empty : ModelSet.empty.Valid .primitives where
  primitives p := ⟨p, rfl⟩
  types := by
    intro entry member
    obtain ⟨p, nameable, rfl⟩ := List.mem_map.mp member
    refine ⟨Ty.voidFree_prim ?_, p, rfl⟩
    rintro rfl
    exact absurd nameable (by decide)
  stamped := by
    rintro t k ⟨p, rfl⟩ stamp
    cases stamp
  models m member := absurd member List.not_mem_nil

namespace Valid

theorem type? {name : String} (valid : s.Valid space) (found : s.type? name = some t) :
    t.VoidFree ∧ space.mem t :=
  valid.types _ (mem_types_of_type? found)

theorem takeStamp (valid : s.Valid space) : s.takeStamp.2.Valid space where
  primitives := valid.primitives
  types := valid.types
  stamped t k member stamp := Nat.lt_succ_of_lt (valid.stamped t k member stamp)
  models := valid.models

theorem reserve (valid : s.Valid space) (name : String) : (s.reserve name).Valid space :=
  { valid with }

/-- A new type makes the space grow. -/
theorem add (valid : s.Valid space) (new : t.VoidFree) (stamp : t.stamp? = some s.stamps.next)
    (elements : ∀ e ∈ t.elements, space.mem e) :
    ∃ wider ≥ space, (s.add t).Valid wider ∧ wider.mem t := by
  have fresh : ∀ u, space.mem u → u.stamp? ≠ some s.stamps.next :=
    fun u member same => Nat.lt_irrefl _ (valid.stamped u _ member same)
  let wider := space.insert t stamp fresh elements
  have grown : space ≤ wider := fun _ => .inl
  refine ⟨wider, grown, ⟨fun p => .inl (valid.primitives p), ?_, ?_, ?_⟩, .inr rfl⟩
  · refine forall_mem_concat (fun entry member => ?_) ⟨new, .inr rfl⟩
    exact (valid.types entry member).imp_right (grown _)
  · rintro u k (old | rfl) given
    · exact Nat.lt_succ_of_lt (valid.stamped u k old given)
    · cases stamp.symm.trans given
      exact Nat.lt_succ_self _
  · exact fun m member => (valid.models m member).mono grown

/-- A declaration that registers a type with the next stamp. -/
theorem register (valid : s.Valid space) (named : t.isNamed = true)
    (stamp : t.stamp? = some s.stamps.next)
    (registered : s.takeStamp.2.register t.qname t = .ok s') :
    ∃ wider ≥ space, s'.Valid wider := by
  rcases register_cases stamp registered with ⟨_, rfl⟩ | ⟨known, found, taken⟩
  · have none : ∀ e ∈ t.elements, space.mem e := by simp [Ty.elements_eq_nil_of_isNamed named]
    obtain ⟨wider, grown, valid', _⟩ := valid.add (Ty.voidFree_of_isNamed named) stamp none
    exact ⟨wider, grown, valid'⟩
  · exact absurd (valid.stamped known _ (valid.type? found).2 taken) (Nat.lt_irrefl _)

/-- A container over types without `void` is one itself, new or not. -/
theorem request {c : Container} (valid : s.Valid space)
    (elements : ∀ e ∈ c.elements, e.VoidFree ∧ space.mem e) :
    ∃ wider ≥ space, (c.request s).2.Valid wider ∧
      (c.request s).1.VoidFree ∧ wider.mem (c.request s).1 := by
  rcases c.request_cases s with ⟨known, found, result⟩ | ⟨_, result⟩
  · rw [result]
    exact ⟨space, le_rfl, valid, valid.type? found⟩
  · rw [result]
    have new := Ty.voidFree_make (n := s.stamps.next) fun e member => (elements e member).1
    obtain ⟨wider, grown, valid', member⟩ := valid.add new Container.make_stamp? fun e inside =>
      (elements e (c.make_elements ▸ inside)).2
    exact ⟨wider, grown, valid', new, member⟩

theorem finish {m : Model} (valid : s.Valid space) (new : m.Valid space) :
    (s.finish m).Valid space := by
  unfold ModelSet.finish
  split
  · exact { valid with models := forall_mem_concat valid.models new }
  · exact valid

theorem abandon (valid : s.Valid space) (name : String) : (s.abandon name).Valid space :=
  { valid with types := fun entry member => valid.types entry (List.mem_filter.mp member).1 }

end Valid

end ModelSet

namespace Model

variable {m m' : Model} {s s' : ModelSet}

@[simp] theorem valid_nil (name? : Option String) : Model.Valid { name := name? } space :=
  ⟨by simp, by simp, by simp⟩

namespace Valid

theorem addInclude (valid : m.Valid space) (name : String) : (m.addInclude name).Valid space := by
  unfold Model.addInclude
  split
  · exact valid
  · exact ⟨valid.consts, valid.records, valid.services⟩

theorem addNamespace {ns : Namespace} (valid : m.Valid space) (h : m.addNamespace ns = .ok m') :
    m'.Valid space := by
  unfold Model.addNamespace at h
  split at h
  · cases h
  · cases h
    exact ⟨valid.consts, valid.records, valid.services⟩

theorem addConst {c : Constant} (valid : m.Valid space) (new : c.Valid space)
    (h : m.addConst s c = .ok m') : m'.Valid space := by
  obtain ⟨_, _, h⟩ := bind_eq_ok h
  cases h
  exact ⟨forall_mem_concat valid.consts new, valid.records, valid.services⟩

theorem addService {v : Service} (valid : m.Valid space) (new : v.Valid space)
    (h : m.addService s v = .ok m') : m'.Valid space := by
  obtain ⟨_, _, h⟩ := bind_eq_ok h
  cases h
  exact ⟨valid.consts, valid.records, forall_mem_concat valid.services new⟩

theorem addEnum {t : Ty} {name : String} {body : Enumeration} (valid : m.Valid space)
    (set : s.Valid space) (h : m.addEnum s name body = .ok (t, m', s')) :
    ∃ wider ≥ space, s'.Valid wider ∧ m'.Valid wider := by
  obtain ⟨_, _, h⟩ := bind_eq_ok h
  obtain ⟨s'', registered, h⟩ := bind_eq_ok h
  cases h
  obtain ⟨wider, grown, set'⟩ := set.register rfl rfl registered
  have valid := valid.mono grown
  exact ⟨wider, grown, set', valid.consts, valid.records, valid.services⟩

theorem addRecord {t : Ty} {isException : Bool} {name : String} {body : Record Ty}
    (valid : m.Valid space) (set : s.Valid space) (new : body.fields.Valid space)
    (h : m.addRecord s isException name body = .ok (t, m', s')) :
    ∃ wider ≥ space, s'.Valid wider ∧ m'.Valid wider := by
  obtain ⟨_, _, h⟩ := bind_eq_ok h
  obtain ⟨s'', registered, h⟩ := bind_eq_ok h
  cases h
  obtain ⟨wider, grown, set'⟩ := set.register rfl rfl registered
  have valid := valid.mono grown
  refine ⟨wider, grown, set', ?_, ?_, ?_⟩
  · cases isException <;> exact valid.consts
  · intro t member
    have old : t ∈ m.structs ++ m.exceptions ∨
        t = .record s.stamps.next isException m.name name body := by
      cases isException <;> simp at member ⊢ <;> grind
    obtain old | rfl := old
    · exact valid.records t old
    · exact ⟨body, rfl, new.mono grown⟩
  · cases isException <;> exact valid.services

theorem declared? {name : String} {symbol : Symbol} (valid : m.Valid space)
    (found : m.declared? name = some symbol) : symbol.Valid space := by
  unfold Model.declared? at found
  simp only [Option.or_eq_some_iff, Option.map_eq_some_iff] at found
  obtain ⟨c, here, rfl⟩ | ⟨_, ⟨_, _, rfl⟩ | ⟨_, ⟨_, _, rfl⟩ | ⟨_, ⟨_, _, rfl⟩ |
    ⟨_, ⟨_, _, rfl⟩ | ⟨_, v, here, rfl⟩⟩⟩⟩⟩ := found
  · exact valid.consts c (List.mem_of_find?_eq_some here)
  · trivial
  · trivial
  · trivial
  · trivial
  · exact valid.services v (List.mem_of_find?_eq_some here)

/-- A name leads to a declaration of the model itself or of one that is loaded. -/
theorem lookupChars {name : List Char} {symbol : Symbol} (valid : m.Valid space)
    (set : s.Valid space) (found : m.lookupChars s name = some symbol) : symbol.Valid space := by
  fun_induction Model.lookupChars s m name with
  | case1 m name known here =>
      cases found
      exact valid.declared? here
  | case2 => cases found
  | case3 m name _ front rest split own ih => exact ih valid found
  | case4 m name _ front rest split other m' loaded ih =>
      exact ih (set.models m' (ModelSet.mem_models_of_model? loaded)) found
  | case5 => cases found

/-- The constants that a name can stand for were made by checks. -/
theorem lookup_const {name : String} {c : Constant} (valid : m.Valid space) (set : s.Valid space)
    (found : m.lookup s name = some (.const c)) : c.Built space := by
  have symbol : Symbol.Valid space (.const c) := valid.lookupChars set found
  exact symbol.built

theorem lookupService {name : String} {v : Service} (valid : m.Valid space) (set : s.Valid space)
    (found : m.lookupService s name = .ok v) : v.Valid space := by
  unfold Model.lookupService at found
  split at found
  · next looked =>
      cases found
      have symbol : Symbol.Valid space (.service v) := valid.lookupChars set looked
      exact symbol
  · cases found
  · cases found

end Valid

end Model

end IdlGen
