import IdlGen.Proofs.Types.Check
import IdlGen.View

/-!
# Alike up to stamps

Stamps are given out in the order in which types are declared and asked for. So two sessions can
give different stamps to what is the same otherwise. A pairing says which stamp of the one session
stands for which stamp of the other; types, values and literals are alike when they agree in
everything else and their stamps are paired.

Only identity looks at stamps. Where no stamp has two partners, what is alike on both sides is the
same on one side exactly if it is on the other; so literals that are alike give values that are
alike, or the same error. Everything else, views in particular, does not depend on stamps at all.
-/

namespace IdlGen

/-- The stamps of one session that stand for stamps of another. -/
abbrev Pairing := Nat → Nat → Prop

namespace Pairing

/-- The pairing that tells nothing about stamps. -/
def any : Pairing := fun _ _ => True

/-- No stamp has two partners. -/
def OneToOne (R : Pairing) : Prop := ∀ ⦃a a' b b'⦄, R a a' → R b b' → (a = b ↔ a' = b')

end Pairing

/-- Both computations give related results, or both the same error. -/
inductive Agree {ε α β : Type} (S : α → β → Prop) : Except ε α → Except ε β → Prop
  | ok {a : α} {b : β} (related : S a b) : Agree S (.ok a) (.ok b)
  | error (e : ε) : Agree S (.error e) (.error e)

namespace Agree

variable {ε α β γ δ : Type} {S : α → β → Prop} {T : γ → δ → Prop}

theorem bind {x : Except ε α} {y : Except ε β} {f : α → Except ε γ} {g : β → Except ε δ}
    (first : Agree S x y) (second : ∀ a b, S a b → Agree T (f a) (g b)) :
    Agree T (x >>= f) (y >>= g) := by
  cases first with
  | ok related => exact second _ _ related
  | error e => exact .error e

theorem mono {S' : α → β → Prop} {x : Except ε α} {y : Except ε β} (agree : Agree S x y)
    (imp : ∀ a b, S a b → S' a b) : Agree S' x y := by
  cases agree with
  | ok related => exact .ok (imp _ _ related)
  | error e => exact .error e

theorem map {x : Except ε α} {y : Except ε β} {f : α → γ} {g : β → δ} (agree : Agree S x y)
    (each : ∀ a b, S a b → T (f a) (g b)) : Agree T (x.map f) (y.map g) := by
  cases agree with
  | ok related => exact .ok (each _ _ related)
  | error e => exact .error e

/-- A computation agrees with itself as far as its results do. -/
theorem refl {S : α → α → Prop} {x : Except ε α} (related : ∀ a, x = .ok a → S a a) :
    Agree S x x := by
  cases x with
  | ok a => exact .ok (related a rfl)
  | error e => exact .error e

/-- A computation gives one result, however often it is run. -/
theorem self (x : Except ε α) : Agree (fun a b => a = b ∧ x = .ok a) x x :=
  .refl fun _ read => ⟨rfl, read⟩

theorem mapM {f : α → Except ε γ} {g : β → Except ε δ} {xs : List α} {ys : List β}
    (items : List.Forall₂ S xs ys) (each : ∀ x y, S x y → Agree T (f x) (g y)) :
    Agree (List.Forall₂ T) (xs.mapM f) (ys.mapM g) := by
  induction items with
  | nil => exact .ok .nil
  | cons first _ ih =>
      rw [List.mapM_cons, List.mapM_cons]
      exact .bind (each _ _ first) fun _ _ head => .bind ih fun _ _ tail => .ok (.cons head tail)

end Agree

/-- What is computed alike from related items is the same list. -/
theorem map_eq_of_forall₂ {α β γ : Type} {S : α → β → Prop} {f : α → γ} {g : β → γ} {as : List α}
    {bs : List β} (items : List.Forall₂ S as bs) (each : ∀ a b, S a b → g b = f a) :
    bs.map g = as.map f := by
  induction items with
  | nil => rfl
  | cons first _ ih => rw [List.map_cons, List.map_cons, each _ _ first, ih]

theorem any_eq_of_forall₂ {α β : Type} {S : α → β → Prop} {p : α → Bool} {q : β → Bool}
    {as : List α} {bs : List β} (items : List.Forall₂ S as bs) (each : ∀ a b, S a b → q b = p a) :
    bs.any q = as.any p := by
  induction items with
  | nil => rfl
  | cons first _ ih => rw [List.any_cons, List.any_cons, each _ _ first, ih]

theorem forall₂_of_zip {α β : Type} {S : α → β → Prop} {as : List α} {bs : List β}
    (size : as.length = bs.length) (items : ∀ a b, (a, b) ∈ as.zip bs → S a b) :
    List.Forall₂ S as bs :=
  List.forall₂_iff_zip.mpr ⟨size, fun member => items _ _ member⟩

structure EnumElement.Like (R : Pairing) (e e' : EnumElement) : Prop where
  owner : R e.owner e'.owner
  enumName : e'.enumName = e.enumName
  name : e'.name = e.name
  value : e'.value = e.value

structure Enumeration.Like (R : Pairing) (b b' : Enumeration) : Prop where
  id : R b.id b'.id
  elements : List.Forall₂ (EnumElement.Like R) b.elements b'.elements
  docs : b'.docs = b.docs

variable {R : Pairing}

namespace EnumElement.Like

variable {e e' f f' : EnumElement}

theorem mono {R' : Pairing} (wider : ∀ a b, R a b → R' a b) (like : e.Like R e') : e.Like R' e' :=
  { like with owner := wider _ _ like.owner }

theorem qname (like : e.Like R e') : e'.qname = e.qname := by
  rw [EnumElement.qname, EnumElement.qname, like.enumName, like.name]

theorem eq_iff (one : R.OneToOne) (like : e.Like R e') (like' : f.Like R f') :
    e = f ↔ e' = f' := by
  obtain ⟨owner, enumName, name, value⟩ := like
  obtain ⟨owner', enumName', name', value'⟩ := like'
  cases e; cases e'; cases f; cases f'
  simp_all [one owner owner']

end EnumElement.Like

theorem Enumeration.Like.mono {R' : Pairing} (wider : ∀ a b, R a b → R' a b)
    {b b' : Enumeration} (like : b.Like R b') : b.Like R' b' :=
  { like with
    id := wider _ _ like.id
    elements := like.elements.imp fun _ _ element => element.mono wider }

structure EnumBuilder.Like (R : Pairing) (b b' : EnumBuilder) : Prop where
  id : R b.id b'.id
  qname : b'.qname = b.qname
  elements : List.Forall₂ (EnumElement.Like R) b.elements b'.elements
  nextId : b'.nextId = b.nextId
  docs : b'.docs = b.docs

namespace EnumBuilder.Like

variable {b b' : EnumBuilder}

theorem addWithId (like : b.Like R b') (name : String) (id : Int) :
    Agree (EnumBuilder.Like R) (b.addWithId name id) (b'.addWithId name id) := by
  have names : b'.elements.any (·.name = name) = b.elements.any (·.name = name) :=
    any_eq_of_forall₂ like.elements fun _ _ element => by rw [element.name]
  have ids : b'.elements.any (·.value = id) = b.elements.any (·.value = id) :=
    any_eq_of_forall₂ like.elements fun _ _ element => by rw [element.value]
  unfold EnumBuilder.addWithId
  rw [names, ids, like.qname, like.nextId]
  split
  · exact .error _
  · split
    · exact .error _
    · exact .ok { like with
        qname := rfl
        elements := List.rel_append like.elements (.cons ⟨like.id, rfl, rfl, rfl⟩ .nil)
        nextId := rfl }

theorem add (like : b.Like R b') (name : String) :
    Agree (EnumBuilder.Like R) (b.add name) (b'.add name) := by
  unfold EnumBuilder.add
  rw [like.qname, like.nextId]
  split
  · exact like.addWithId name b.nextId
  · exact .error _

theorem build (like : b.Like R b') : b.build.Like R b'.build := ⟨like.id, like.elements, like.docs⟩

end EnumBuilder.Like

namespace Value

/-- Whether no element of an enumeration can be inside. -/
def isAtom : Value → Bool
  | .list _ => false
  | .set _ => false
  | .map _ => false
  | .enum _ => false
  | _ => true

inductive Like (R : Pairing) : Value → Value → Prop
  | atom {v : Value} (atomic : v.isAtom = true) : Like R v v
  | list {as bs : List Value} (size : as.length = bs.length)
      (items : ∀ a b, (a, b) ∈ as.zip bs → Like R a b) : Like R (.list as) (.list bs)
  | set {as bs : List Value} (size : as.length = bs.length)
      (items : ∀ a b, (a, b) ∈ as.zip bs → Like R a b) : Like R (.set as) (.set bs)
  | map {as bs : List (Value × Value)} (size : as.length = bs.length)
      (keys : ∀ a b, (a, b) ∈ as.zip bs → Like R a.1 b.1)
      (values : ∀ a b, (a, b) ∈ as.zip bs → Like R a.2 b.2) : Like R (.map as) (.map bs)
  | enum {e e' : EnumElement} (element : e.Like R e') : Like R (.enum e) (.enum e')

/-- Entries whose keys and values are related. -/
def Entrywise {α β : Type} (S : α → β → Prop) (a : α × α) (b : β × β) : Prop :=
  S a.1 b.1 ∧ S a.2 b.2

namespace Like

variable {v v' w w' : Value}

theorem of_items {as bs : List Value} (items : List.Forall₂ (Like R) as bs) :
    Like R (.list as) (.list bs) :=
  .list items.length_eq fun _ _ => List.forall₂_zip items

theorem of_members {as bs : List Value} (items : List.Forall₂ (Like R) as bs) :
    Like R (.set as) (.set bs) :=
  .set items.length_eq fun _ _ => List.forall₂_zip items

theorem of_entries {as bs : List (Value × Value)}
    (entries : List.Forall₂ (Entrywise (Like R)) as bs) : Like R (.map as) (.map bs) :=
  .map entries.length_eq (fun _ _ member => (List.forall₂_zip entries member).1)
    fun _ _ member => (List.forall₂_zip entries member).2

theorem mono {R' : Pairing} (wider : ∀ a b, R a b → R' a b) (like : v.Like R v') :
    v.Like R' v' := by
  induction like with
  | atom atomic => exact .atom atomic
  | list size _ ih => exact .list size ih
  | set size _ ih => exact .set size ih
  | map size _ _ ihk ihv => exact .map size ihk ihv
  | enum element => exact .enum (element.mono wider)

end Like

theorem equalAll_congr {as as' bs bs' : List Value}
    (each : List.Forall₂ (fun a a' => ∀ b b', Like R b b' → a.equal b = a'.equal b') as as')
    (items : List.Forall₂ (Like R) bs bs') : equalAll as bs = equalAll as' bs' := by
  induction each generalizing bs bs' with
  | nil => cases items <;> rfl
  | cons first _ ih =>
      cases items with
      | nil => rfl
      | cons head tail => rw [equalAll, equalAll, first _ _ head, ih tail]

theorem equalEntries_congr {as as' bs bs' : List (Value × Value)}
    (each : List.Forall₂
      (Entrywise fun a a' => ∀ b b', Like R b b' → a.equal b = a'.equal b') as as')
    (entries : List.Forall₂ (Entrywise (Like R)) bs bs') :
    equalEntries as bs = equalEntries as' bs' := by
  induction each generalizing bs bs' with
  | nil => cases entries <;> rfl
  | @cons a a' _ _ first _ ih =>
      cases entries with
      | nil => rfl
      | @cons b b' _ _ head tail =>
          obtain ⟨k, v⟩ := a
          obtain ⟨k', v'⟩ := a'
          obtain ⟨l, w⟩ := b
          obtain ⟨l', w'⟩ := b'
          rw [equalEntries, equalEntries, first.1 _ _ head.1, first.2 _ _ head.2, ih tail]

/-- Equality does not depend on which stamps are paired. -/
theorem Like.equal (one : R.OneToOne) {v v' w w' : Value} (like : v.Like R v')
    (like' : w.Like R w') : v.equal w = v'.equal w' := by
  induction like generalizing w w' with
  | @atom v atomic =>
      cases like' with
      | atom => rfl
      | _ => cases v <;> first | rfl | cases atomic
  | list size _ ih =>
      cases like' with
      | list size' items =>
          exact equalAll_congr (forall₂_of_zip size fun _ _ member _ _ => ih _ _ member)
            (forall₂_of_zip size' items)
      | @atom w atomic => cases w <;> first | rfl | cases atomic
      | _ => rfl
  | set size _ ih =>
      cases like' with
      | set size' items =>
          exact equalAll_congr (forall₂_of_zip size fun _ _ member _ _ => ih _ _ member)
            (forall₂_of_zip size' items)
      | @atom w atomic => cases w <;> first | rfl | cases atomic
      | _ => rfl
  | map size _ _ ihk ihv =>
      cases like' with
      | map size' keys values =>
          refine equalEntries_congr (forall₂_of_zip size fun _ _ member => ⟨?_, ?_⟩)
            (forall₂_of_zip size' fun _ _ member => ⟨keys _ _ member, values _ _ member⟩)
          · exact fun _ _ => ihk _ _ member
          · exact fun _ _ => ihv _ _ member
      | @atom w atomic => cases w <;> first | rfl | cases atomic
      | _ => rfl
  | enum element =>
      cases like' with
      | enum element' => exact decide_eq_decide.mpr (element.eq_iff one element')
      | @atom w atomic => cases w <;> first | rfl | cases atomic
      | _ => rfl

theorem addNew_like (one : R.OneToOne) {as bs : List Value} {v w : Value}
    (items : List.Forall₂ (Like R) as bs) (like : v.Like R w) :
    List.Forall₂ (Like R) (addNew as v) (addNew bs w) := by
  have found : bs.any (·.equal w) = as.any (·.equal v) :=
    any_eq_of_forall₂ items fun _ _ item => (item.equal one like).symm
  unfold addNew
  rw [found]
  split
  · exact items
  · exact List.rel_append items (.cons like .nil)

theorem distinct_like (one : R.OneToOne) {as bs : List Value}
    (items : List.Forall₂ (Like R) as bs) :
    List.Forall₂ (Like R) (distinct as) (distinct bs) := by
  refine List.rel_foldl (P := List.Forall₂ (Like R)) (R := Like R) ?_ .nil items
  intro _ _ before _ _ like
  exact addNew_like one before like

theorem put_like (one : R.OneToOne) {k k' v v' : Value} (key : k.Like R k') (value : v.Like R v')
    {as bs : List (Value × Value)} (entries : List.Forall₂ (Entrywise (Like R)) as bs) :
    List.Forall₂ (Entrywise (Like R)) (put k v as) (put k' v' bs) := by
  induction entries with
  | nil => exact .cons ⟨key, value⟩ .nil
  | cons first rest ih =>
      unfold put
      simp only [first.1.equal one key]
      split
      · exact .cons ⟨first.1, value⟩ rest
      · exact .cons first ih

theorem collapse_like (one : R.OneToOne) {as bs : List (Value × Value)}
    (entries : List.Forall₂ (Entrywise (Like R)) as bs) :
    List.Forall₂ (Entrywise (Like R)) (collapse as) (collapse bs) := by
  refine List.rel_foldl (P := List.Forall₂ (Entrywise (Like R))) (R := Entrywise (Like R)) ?_ .nil
    entries
  intro _ _ before _ _ entry
  exact put_like one entry.1 entry.2 before

end Value

namespace View

@[simp] theorem values_eq_map (items : List Value) : values items = items.map value := by
  induction items with
  | nil => rfl
  | cons v rest ih => rw [values, ih, List.map_cons]

@[simp] theorem entries_eq_map (es : List (Value × Value)) :
    entries es = es.map fun e => .object [("key", value e.1), ("value", value e.2)] := by
  induction es with
  | nil => rfl
  | cons e rest ih => rw [entries, ih, List.map_cons]

end View

/-- The data in a value does not show stamps. -/
theorem Value.Like.view {v v' : Value} (like : v.Like R v') : View.value v' = View.value v := by
  induction like with
  | atom => rfl
  | list size _ ih | set size _ ih =>
      rw [View.value, View.value, View.values_eq_map, View.values_eq_map,
        map_eq_of_forall₂ (forall₂_of_zip size ih) fun _ _ same => same]
  | map size _ _ ihk ihv =>
      rw [View.value, View.value, View.entries_eq_map, View.entries_eq_map]
      refine congrArg _ (map_eq_of_forall₂ (forall₂_of_zip size fun a b member => ?_)
        fun a b (same : View.value b.1 = View.value a.1 ∧ View.value b.2 = View.value a.2) => ?_)
      · exact ⟨ihk a b member, ihv a b member⟩
      · rw [same.1, same.2]
  | enum element =>
      rw [View.value, View.value, element.enumName, element.name, element.value]

/-- Both records look the same, whatever the stamps inside of their fields. -/
structure Record.Alike (b b' : Record Ty) : Prop where
  fields : View.fields b'.fields = View.fields b.fields
  isUnion : b'.isUnion = b.isUnion
  annotations : b'.annotations = b.annotations
  docs : b'.docs = b.docs

namespace Ty

inductive Like (R : Pairing) : Ty → Ty → Prop
  | prim (p : Primitive) : Like R (.prim p) (.prim p)
  | list {k k' : Nat} {e e' : Ty} (stamp : R k k') (elem : Like R e e') :
      Like R (.list k e) (.list k' e')
  | set {k k' : Nat} {e e' : Ty} (stamp : R k k') (elem : Like R e e') :
      Like R (.set k e) (.set k' e')
  | map {k k' : Nat} {key key' value value' : Ty} (stamp : R k k') (keys : Like R key key')
      (values : Like R value value') : Like R (.map k key value) (.map k' key' value')
  | enum {k k' : Nat} {model : Option String} {name : String} {b b' : Enumeration}
      (stamp : R k k') (body : b.Like R b') : Like R (.enum k model name b) (.enum k' model name b')
  | record {k k' : Nat} {isException : Bool} {model : Option String} {name : String}
      {b b' : Record Ty} (stamp : R k k') (body : b.Alike b') :
      Like R (.record k isException model name b) (.record k' isException model name b')

namespace Like

variable {t t' u u' : Ty}

theorem mono {R' : Pairing} (wider : ∀ a b, R a b → R' a b) (like : t.Like R t') :
    t.Like R' t' := by
  induction like with
  | prim p => exact .prim p
  | list stamp _ ih => exact .list (wider _ _ stamp) ih
  | set stamp _ ih => exact .set (wider _ _ stamp) ih
  | map stamp _ _ ihk ihv => exact .map (wider _ _ stamp) ihk ihv
  | enum stamp body => exact .enum (wider _ _ stamp) (body.mono wider)
  | record stamp body => exact .record (wider _ _ stamp) body

theorem qname (like : t.Like R t') : t'.qname = t.qname := by
  induction like with
  | list _ _ ih | set _ _ ih => rw [Ty.qname, Ty.qname, ih]
  | map _ _ _ ihk ihv => rw [Ty.qname, Ty.qname, ihk, ihv]
  | prim | enum | record => rfl

theorem name (like : t.Like R t') : t'.name = t.name := by
  have same := like.qname
  cases like with
  | enum | record => rfl
  | _ => exact same

theorem category (like : t.Like R t') : t'.category = t.category := by
  cases like <;> rfl

theorem modelName? (like : t.Like R t') : t'.modelName? = t.modelName? := by
  cases like <;> rfl

theorem isNamed (like : t.Like R t') : t'.isNamed = t.isNamed := by
  cases like <;> rfl

theorem isUnion (like : t.Like R t') : t'.isUnion = t.isUnion := by
  cases like with
  | record _ body => exact body.isUnion
  | _ => rfl

theorem ownedBy (like : t.Like R t') (n : String) : t'.ownedBy n = t.ownedBy n := by
  induction like with
  | list _ _ ih | set _ _ ih => exact ih
  | map _ _ _ ihk ihv => rw [Ty.ownedBy, Ty.ownedBy, ihk, ihv]
  | prim | enum | record => rfl

theorem stamp (like : t.Like R t') :
    (∃ p, t = .prim p ∧ t' = .prim p) ∨
      ∃ k k', t.stamp? = some k ∧ t'.stamp? = some k' ∧ R k k' := by
  cases like with
  | prim p => exact .inl ⟨p, rfl, rfl⟩
  | list stamp | set stamp | map stamp | enum stamp | record stamp =>
      exact .inr ⟨_, _, rfl, rfl, stamp⟩

/-- Two types are the same on one side exactly if they are on the other. -/
theorem same (one : R.OneToOne) (like : t.Like R t') (like' : u.Like R u') :
    t.same u = t'.same u' := by
  have prim_ne {t : Ty} {p : Primitive} {k : Nat} (stamp : t.stamp? = some k) : t ≠ .prim p := by
    rintro rfl
    cases stamp
  rw [Bool.eq_iff_iff, same_iff, same_iff]
  obtain ⟨p, rfl, rfl⟩ | ⟨k, k', stamp, stamp', paired⟩ := like.stamp <;>
    obtain ⟨q, rfl, rfl⟩ | ⟨l, l', stampU, stampU', pairedU⟩ := like'.stamp
  · exact Iff.rfl
  · simp [Ty.stamp?, prim_ne stampU, prim_ne stampU']
  · simp [Ty.stamp?, prim_ne stamp, prim_ne stamp']
  · simp [prim_ne stamp, prim_ne stamp', stamp, stamp', stampU, stampU', one paired pairedU,
      eq_comm]

/-- The description of a type does not show stamps. -/
theorem view (like : t.Like R t') : View.type t' = View.type t := by
  have name := like.name
  have qname := like.qname
  have isUnion := like.isUnion
  induction like with
  | prim => rfl
  | list _ elem ih | set _ elem ih =>
      rw [View.type, View.type, name, qname, isUnion, ih elem.name elem.qname elem.isUnion]
      rfl
  | map _ keys values ihk ihv =>
      rw [View.type, View.type, name, qname, isUnion, ihk keys.name keys.qname keys.isUnion,
        ihv values.name values.qname values.isUnion]
      rfl
  | enum => rfl
  | record =>
      simp only [View.type, isUnion]
      rfl

end Like

end Ty

structure Constant.Like (R : Pairing) (c c' : Constant) : Prop where
  model : c'.model = c.model
  name : c'.name = c.name
  type : c.type.Like R c'.type
  value : c.value.Like R c'.value
  docs : c'.docs = c.docs

namespace Constant.Like

variable {c c' : Constant}

theorem mono {R' : Pairing} (wider : ∀ a b, R a b → R' a b) (like : c.Like R c') : c.Like R' c' :=
  { like with type := like.type.mono wider, value := like.value.mono wider }

theorem qname (like : c.Like R c') : c'.qname = c.qname := by
  rw [Constant.qname, Constant.qname, like.model, like.name]

theorem view (like : c.Like R c') : View.constant c' = View.constant c := by
  simp only [View.constant, like.name, like.qname, like.type.view, like.value.view, like.docs]

end Constant.Like

namespace Literal

/-- Whether no stamp can be inside. -/
def isAtom : Literal → Bool
  | .list _ => false
  | .map _ => false
  | .enum _ => false
  | .const _ => false
  | _ => true

inductive Like (R : Pairing) : Literal → Literal → Prop
  | atom {l : Literal} (atomic : l.isAtom = true) : Like R l l
  | list {as bs : List Literal} (size : as.length = bs.length)
      (items : ∀ a b, (a, b) ∈ as.zip bs → Like R a b) : Like R (.list as) (.list bs)
  | map {as bs : List (Literal × Literal)} (size : as.length = bs.length)
      (keys : ∀ a b, (a, b) ∈ as.zip bs → Like R a.1 b.1)
      (values : ∀ a b, (a, b) ∈ as.zip bs → Like R a.2 b.2) : Like R (.map as) (.map bs)
  | enum {e e' : EnumElement} (element : e.Like R e') : Like R (.enum e) (.enum e')
  | const {c c' : Constant} (constant : c.Like R c') : Like R (.const c) (.const c')

theorem Like.of_items {as bs : List Literal} (items : List.Forall₂ (Like R) as bs) :
    Like R (.list as) (.list bs) :=
  .list items.length_eq fun _ _ => List.forall₂_zip items

theorem Like.of_entries {as bs : List (Literal × Literal)}
    (entries : List.Forall₂ (Value.Entrywise (Like R)) as bs) : Like R (.map as) (.map bs) :=
  .map entries.length_eq (fun _ _ member => (List.forall₂_zip entries member).1)
    fun _ _ member => (List.forall₂_zip entries member).2

@[simp] theorem renderAll_eq_map (items : List Literal) : renderAll items = items.map render := by
  induction items with
  | nil => rfl
  | cons l rest ih => rw [renderAll, ih, List.map_cons]

@[simp] theorem renderEntries_eq_map (entries : List (Literal × Literal)) :
    renderEntries entries = entries.map fun e => e.1.render ++ ": " ++ e.2.render := by
  induction entries with
  | nil => rfl
  | cons e rest ih => rw [renderEntries, ih, List.map_cons]

/-- Messages do not show stamps. -/
theorem Like.render {l l' : Literal} (like : l.Like R l') : l'.render = l.render := by
  induction like with
  | atom => rfl
  | list size _ ih =>
      rw [Literal.render, Literal.render, renderAll_eq_map, renderAll_eq_map,
        map_eq_of_forall₂ (forall₂_of_zip size ih) fun _ _ same => same]
  | map size _ _ ihk ihv =>
      rw [Literal.render, Literal.render, renderEntries_eq_map, renderEntries_eq_map]
      refine congrArg _ (map_eq_of_forall₂ (forall₂_of_zip size fun a b member => ?_)
        fun a b (same : b.1.render = a.1.render ∧ b.2.render = a.2.render) => ?_)
      · exact ⟨ihk a b member, ihv a b member⟩
      · rw [same.1, same.2]
  | enum element => exact element.qname
  | const constant => exact constant.qname

theorem ofValue_like {v v' : Value} (like : v.Like R v') : (ofValue v).Like R (ofValue v') := by
  induction like with
  | @atom v atomic =>
      cases v with
      | list | set | map | enum => cases atomic
      | _ => exact .atom rfl
  | list size _ ih | set size _ ih =>
      rw [ofValue, ofValue, ofValues_eq_map, ofValues_eq_map]
      refine .of_items (List.forall₂_map_left_iff.mpr (List.forall₂_map_right_iff.mpr ?_))
      exact forall₂_of_zip size ih
  | map size _ _ ihk ihv =>
      rw [ofValue, ofValue, ofEntries_eq_map, ofEntries_eq_map]
      refine .of_entries (List.forall₂_map_left_iff.mpr (List.forall₂_map_right_iff.mpr ?_))
      exact forall₂_of_zip size fun a b member => ⟨ihk a b member, ihv a b member⟩
  | enum element => exact .enum element

theorem Like.byte? {l l' : Literal} (like : l.Like R l') : l'.byte? = l.byte? := by
  cases like <;> rfl

end Literal

theorem Primitive.isAtom_of_check {p : Primitive} {l : Literal} {v : Value}
    (h : p.check l = .ok v) : v.isAtom = true := by
  unfold check at h
  repeat' split at h
  all_goals cases h <;> rfl

theorem Literal.mapM_byte?_of_like {as bs : List Literal}
    (items : List.Forall₂ (Literal.Like R) as bs) :
    bs.mapM Literal.byte? = as.mapM Literal.byte? := by
  induction items with
  | nil => rfl
  | cons first _ ih => rw [List.mapM_cons, List.mapM_cons, first.byte?, ih]

theorem Primitive.check_eq_of_like (p : Primitive) {l l' : Literal} (like : l.Like R l') :
    p.check l' = p.check l := by
  have render := like.render
  cases like with
  | atom => rfl
  | list size items =>
      have bytes := Literal.mapM_byte?_of_like (forall₂_of_zip size items)
      cases p <;> simp only [check, render, bytes]
  | map | enum | const => cases p <;> simp only [check, render]

namespace Ty

/-- Whether the form of the literal is one that the type looks into. -/
def opens : Ty → Literal → Bool
  | .prim _, l => l.isProper
  | .list .., .list _ => true
  | .set .., .list _ => true
  | .map .., .map _ => true
  | .enum .., .enum _ => true
  | _, _ => false

theorem opens_of_isAtom {t : Ty} {l : Literal} (compound : t.primitive? = none)
    (atomic : l.isAtom = true) : t.opens l = false := by
  cases t <;> cases l <;> first | (cases compound; done) | (cases atomic; done) | rfl

theorem check_of_not_opens {t : Ty} {l : Literal} (proper : l.isProper = true)
    (closed : t.opens l = false) : t.check l = .error (.illegalValue t.name l.render) := by
  cases t <;> cases l <;> first | (cases proper; done) | (cases closed; done) | rfl

@[simp] theorem check_enum {k : Nat} {model : Option String} {name : String} (b : Enumeration)
    (x : EnumElement) : (enum k model name b).check (.enum x) =
      if b.owns x then .ok (.enum x) else .error (.illegalValue name x.qname) :=
  rfl

namespace Like

variable {t t' : Ty} {l l' : Literal}

theorem opens (like : t.Like R t') (lits : l.Like R l') : t'.opens l' = t.opens l := by
  cases lits with
  | @atom l atomic => cases like <;> cases l <;> rfl
  | _ => cases like <;> rfl

/-- A constant is taken by its identity or by its value, and most other literals are refused by
their form. So what is left to show of a type concerns the literals that it looks into. -/
theorem check_of_opens (one : R.OneToOne) (like : t.Like R t')
    (opened : ∀ {l l' : Literal}, l.Like R l' → t.opens l = true →
      Agree (Value.Like R) (t.check l) (t'.check l')) (lits : l.Like R l') :
    Agree (Value.Like R) (t.check l) (t'.check l') := by
  have null : Agree (Value.Like R) (t.check .null) (t'.check .null) := by
    have refused : (t'.isScalar || t'.isEnum) = (t.isScalar || t.isEnum) := by
      simp only [isScalar, isNumeric, isEnum, like.category]
    rw [check_null, check_null, refused, like.name]
    cases t.isScalar || t.isEnum with
    | true => exact .error _
    | false => exact .ok (.atom rfl)
  -- Without constants, as the literals of values are.
  have direct : ∀ {l l' : Literal}, l.Like R l' → (∀ c, l ≠ .const c) →
      Agree (Value.Like R) (t.check l) (t'.check l') := by
    intro l l' lits notConst
    by_cases isNull : l = .null
    · subst isNull
      cases lits
      exact null
    · by_cases isOpen : t.opens l = true
      · exact opened lits isOpen
      · have proper : l.isProper = true := by cases l <;> simp_all [Literal.isProper]
        have proper' : l'.isProper = true := by cases lits <;> exact proper
        have closed := Bool.eq_false_iff.mpr isOpen
        rw [check_of_not_opens proper closed,
          check_of_not_opens proper' ((like.opens lits).trans closed), like.name, lits.render]
        exact .error _
  by_cases isConst : ∃ c, l = .const c
  · obtain ⟨c, rfl⟩ := isConst
    cases lits with
    | atom atomic => cases atomic
    | const constant =>
        rw [check_const, check_const, ← constant.type.same one like]
        split
        · exact .ok constant.value
        · refine direct (Literal.ofValue_like constant.value) fun d => ?_
          cases c.value <;> simp [Literal.ofValue]
  · exact direct lits fun c same => isConst ⟨c, same⟩

/-- Literals that are alike give values that are alike, or are refused with the same error. -/
theorem check (one : R.OneToOne) (like : t.Like R t') (lits : l.Like R l') :
    Agree (Value.Like R) (t.check l) (t'.check l') := by
  induction like generalizing l l' with
  | prim p =>
      refine check_of_opens one (.prim p) (fun {l l'} lits proper => ?_) lits
      have proper' : l'.isProper = true := ((Like.prim p).opens lits).trans proper
      rw [check_prim proper, check_prim proper', p.check_eq_of_like lits]
      exact .refl fun v checked => .atom (Primitive.isAtom_of_check checked)
  | list stamp elem ih =>
      refine check_of_opens one (.list stamp elem) (fun lits isOpen => ?_) lits
      cases lits with
      | list size items =>
          exact .bind (.mapM (forall₂_of_zip size items) fun _ _ => ih) fun _ _ values =>
            .ok (.of_items values)
      | atom atomic => cases (opens_of_isAtom rfl atomic).symm.trans isOpen
      | _ => cases isOpen
  | set stamp elem ih =>
      refine check_of_opens one (.set stamp elem) (fun lits isOpen => ?_) lits
      cases lits with
      | list size items =>
          exact .bind (.mapM (forall₂_of_zip size items) fun _ _ => ih) fun _ _ values =>
            .ok (.of_members (Value.distinct_like one values))
      | atom atomic => cases (opens_of_isAtom rfl atomic).symm.trans isOpen
      | _ => cases isOpen
  | map stamp keys values ihk ihv =>
      refine check_of_opens one (.map stamp keys values) (fun lits isOpen => ?_) lits
      cases lits with
      | map size litKeys litValues =>
          have entries := forall₂_of_zip size fun a b member =>
            And.intro (litKeys a b member) (litValues a b member)
          refine .bind (.mapM entries fun a b entry => ?_) fun _ _ pairs =>
            .ok (.of_entries (Value.collapse_like one pairs))
          exact .bind (ihk entry.1) fun _ _ key => .bind (ihv entry.2) fun _ _ value =>
            .ok ⟨key, value⟩
      | atom atomic => cases (opens_of_isAtom rfl atomic).symm.trans isOpen
      | _ => cases isOpen
  | @enum k k' model name b b' stamp body =>
      refine check_of_opens one (.enum stamp body) (fun lits isOpen => ?_) lits
      cases lits with
      | @enum x x' element =>
          have owns : b'.owns x' = b.owns x :=
            decide_eq_decide.mpr (one element.owner body.id).symm
          rw [check_enum, check_enum, owns, element.qname]
          cases b.owns x with
          | true => exact .ok (.enum element)
          | false => exact .error _
      | atom atomic => cases (opens_of_isAtom rfl atomic).symm.trans isOpen
      | _ => cases isOpen
  | record stamp body =>
      refine check_of_opens one (.record stamp body) (fun {l _} lits isOpen => ?_) lits
      cases l <;> cases isOpen

end Like

end Ty

/-- Constants that are written alike are alike, or refused for the same reason. -/
theorem Constant.ofLiteral_like (one : R.OneToOne) {model : Option String} {name : String}
    {t t' : Ty} {l l' : Literal} {docs : Docs} (type : t.Like R t') (lits : l.Like R l') :
    Agree (Constant.Like R) (Constant.ofLiteral model name t l docs)
      (Constant.ofLiteral model name t' l' docs) :=
  .bind (type.check one lits) fun _ _ value => .ok ⟨rfl, rfl, type, value, rfl⟩

end IdlGen
