import IdlGen.Proofs.Model.Containers
import IdlGen.Proofs.Model.Likeness
import IdlGen.Proofs.Types.Naming

/-!
# Two sets side by side

The same text can be read into two sets, one of which has types that the other one does not have.
`Twin.Alike` says that apart from these extra types the two sets are alike. Each operation on a set
keeps it, if the same is done on both sides; new stamps become partners.

The extra types are those that a text without a model name leaves in a registry. They have bare
names, so they never take a name that a named model declares. The container over given types may be
one of them, made before the other side asks for it. Then its stamp becomes the partner of the one
that the other side gives out.
-/

namespace IdlGen

/-- The pairing with one more pair of stamps. -/
def Pairing.insert (R : Pairing) (a b : Nat) : Pairing := fun x y => R x y ∨ x = a ∧ y = b

namespace Pairing

variable {R : Pairing} {a b : Nat}

theorem wider_insert (R : Pairing) (a b : Nat) : ∀ x y, R x y → R.insert a b x y := fun _ _ => .inl

@[simp] theorem insert_self (R : Pairing) (a b : Nat) : R.insert a b a b := .inr ⟨rfl, rfl⟩

theorem OneToOne.insert (one : R.OneToOne) (new : ∀ y, ¬ R a y) (new' : ∀ x, ¬ R x b) :
    (R.insert a b).OneToOne := by
  rintro x x' y y' (old | ⟨rfl, rfl⟩) (old' | ⟨rfl, rfl⟩)
  · exact one old old'
  · exact ⟨fun same => absurd (same ▸ old) (new _), fun same => absurd (same ▸ old) (new' _)⟩
  · exact ⟨fun same => absurd (same ▸ old') (new _), fun same => absurd (same ▸ old') (new' _)⟩
  · exact ⟨fun _ => rfl, fun _ => rfl⟩

end Pairing

/-- A type that a text without a model name can bring into a registry: it belongs to no model, and
if it is a container, its elements are named without the help of a model. -/
def Ty.Foreign (t : Ty) : Prop := t.modelName? = none ∧ ∀ e ∈ t.elements, Spelt none e.qname.toList

theorem Ty.Foreign.qname_ne_qualify {t : Ty} {n x : String} (foreign : t.Foreign)
    (identifier : t.isNamed = true → Shape.isIdentifier t.name.toList = true)
    (plain : Plain x.toList) : t.qname ≠ qualify (some n) x :=
  t.qname_ne_qualify foreign.1 identifier plain

/-- The name of a foreign type tells whether it is a container. -/
theorem Ty.Foreign.plain_qname {t : Ty} (foreign : t.Foreign) (leaf : t.elements = [])
    (identifier : t.isNamed = true → Shape.isIdentifier t.name.toList = true) :
    Plain t.qname.toList := by
  rw [t.qname_eq_qualify, foreign.1]
  cases t with
  | prim p => exact p.plain_name
  | enum | record => exact Shape.plain_of_isIdentifier (identifier rfl)
  | list | set | map => cases leaf

theorem Spelt.qualify {model : Option String} {x : String} (plain : Plain x.toList) :
    Spelt model (qualify model x).toList := by
  cases model with
  | none => exact .word plain
  | some n =>
      rw [toList_qualify]
      exact .own rfl plain

/-- Two containers of one kind over types that are related. -/
inductive Container.Pairwise (S : Ty → Ty → Prop) : Container → Container → Prop
  | list {e e' : Ty} (elem : S e e') : Pairwise S (.list e) (.list e')
  | set {e e' : Ty} (elem : S e e') : Pairwise S (.set e) (.set e')
  | map {k k' v v' : Ty} (key : S k k') (value : S v v') : Pairwise S (.map k v) (.map k' v')

namespace Container.Pairwise

variable {S : Ty → Ty → Prop} {P : Ty → Prop} {c c' : Container}

theorem self (each : ∀ e ∈ c.elements, S e e) : c.Pairwise S c := by
  cases c with
  | list e => exact .list (each e (by simp))
  | set e => exact .set (each e (by simp))
  | map k v => exact .map (each k (by simp)) (each v (by simp))

theorem left (pairs : c.Pairwise S c') (each : ∀ e e', S e e' → P e) : ∀ e ∈ c.elements, P e := by
  cases pairs with
  | list elem | set elem => simpa using each _ _ elem
  | map key value => simpa using ⟨each _ _ key, each _ _ value⟩

theorem right (pairs : c.Pairwise S c') (each : ∀ e e', S e e' → P e') :
    ∀ e ∈ c'.elements, P e := by
  cases pairs with
  | list elem | set elem => simpa using each _ _ elem
  | map key value => simpa using ⟨each _ _ key, each _ _ value⟩

theorem make {R : Pairing} {a b : Nat} (pairs : c.Pairwise S c')
    (each : ∀ e e', S e e' → e.Like R e') (stamp : R a b) : (c.make a).Like R (c'.make b) := by
  cases pairs with
  | list elem => exact .list stamp (each _ _ elem)
  | set elem => exact .set stamp (each _ _ elem)
  | map key value => exact .map stamp (each _ _ key) (each _ _ value)

theorem qname {R : Pairing} {k : Nat} (pairs : c.Pairwise S c')
    (each : ∀ e e', S e e' → e.Like R e') : (c'.make k).qname = (c.make k).qname :=
  (pairs.make (R := .any) (fun e e' related => (each e e' related).forget) trivial).qname

end Container.Pairwise

/-- Two sets, and which of their stamps stand for each other. -/
structure Twin where
  stamps : Pairing
  left : ModelSet
  right : ModelSet

namespace Twin

/-- Both sets are alike, up to types in `X` that only the right one has. All types of the right one
are in `I`. -/
structure Alike (X I : Ty → Prop) (w : Twin) : Prop where
  wf : w.left.WellFormed
  wf' : w.right.WellFormed
  one : w.stamps.OneToOne
  below : ∀ {a b}, w.stamps a b → a < w.left.stamps.next ∧ b < w.right.stamps.next
  models : List.Forall₂ (Model.Like w.stamps) w.left.models w.right.models
  pending : w.right.pending = w.left.pending
  known : ∀ {k t}, w.left.type? k = some t → ∃ t', w.right.type? k = some t' ∧ t.Like w.stamps t'
  extra : ∀ {k t}, w.right.type? k = some t → w.left.type? k = none →
    X t ∧ ∀ a b, t.stamp? = some b → ¬ w.stamps a b
  all : ∀ {k t}, w.right.type? k = some t → I t

/-- Both sets have grown, without a model being started, finished or abandoned. -/
structure Onward (w w' : Twin) : Prop where
  wider : ∀ a b, w.stamps a b → w'.stamps a b
  holds : ∀ {t}, w.left.Holds t → w'.left.Holds t
  holds' : ∀ {t}, w.right.Holds t → w'.right.Holds t
  pending : w'.left.pending = w.left.pending

@[refl, simp] theorem Onward.refl (w : Twin) : w.Onward w := ⟨fun _ _ => id, id, id, rfl⟩

theorem Onward.trans {w w' w'' : Twin} (first : w.Onward w') (second : w'.Onward w'') :
    w.Onward w'' where
  wider a b paired := second.wider a b (first.wider a b paired)
  holds held := second.holds (first.holds held)
  holds' held := second.holds' (first.holds' held)
  pending := second.pending.trans first.pending

/-- Work that grows each of the sets. -/
theorem Onward.of_setback {D D' : Ty → Prop} {w : Twin} {R : Pairing} {s s' : ModelSet}
    (wider : ∀ a b, w.stamps a b → R a b) (left : w.left.Setback D s)
    (right : w.right.Setback D' s') : w.Onward ⟨R, s, s'⟩ :=
  ⟨wider, left.holds, right.holds, left.pending⟩

/-- What a text of the given model may do: it does not meet the extra types under names of its own,
and the types that it brings are in `I`. -/
structure Setting (X I : Ty → Prop) (model : Option String) : Prop where
  foreign : ∀ {t}, X t → t.Foreign
  apart : model = none → ∀ t, ¬ X t
  declared : ∀ {t}, t.isNamed = true → t.modelName? = model → I t
  container : ∀ {c : Container} {k : Nat}, (∀ e ∈ c.elements, Spelt model e.qname.toList) →
    I (c.make k)

variable {X I : Ty → Prop} {w : Twin} {model : Option String}

namespace Alike

theorem isPending (alike : w.Alike X I) (n : String) :
    w.right.isPending n = w.left.isPending n := by
  rw [ModelSet.isPending, ModelSet.isPending, alike.pending]

theorem isLoaded (alike : w.Alike X I) (n : String) : w.right.isLoaded n = w.left.isLoaded n :=
  ModelSet.isLoaded_like alike.models n

theorem left_new (alike : w.Alike X I) (b : Nat) : ¬ w.stamps w.left.stamps.next b :=
  fun paired => Nat.lt_irrefl _ (alike.below paired).1

theorem right_new (alike : w.Alike X I) (a : Nat) : ¬ w.stamps a w.right.stamps.next :=
  fun paired => Nat.lt_irrefl _ (alike.below paired).2

/-- Both sides have given out a stamp. -/
theorem takeStamp (alike : w.Alike X I) :
    Alike X I ⟨w.stamps.insert w.left.stamps.next w.right.stamps.next, w.left.takeStamp.2,
      w.right.takeStamp.2⟩ where
  wf := alike.wf.takeStamp
  wf' := alike.wf'.takeStamp
  one := alike.one.insert alike.left_new alike.right_new
  below := by
    rintro a b (old | ⟨rfl, rfl⟩)
    · exact (alike.below old).imp Nat.lt_succ_of_lt Nat.lt_succ_of_lt
    · exact ⟨Nat.lt_succ_self _, Nat.lt_succ_self _⟩
  models := alike.models.imp fun _ _ model => model.mono (Pairing.wider_insert _ _ _)
  pending := alike.pending
  known found := by
    obtain ⟨t', found', like⟩ := alike.known found
    exact ⟨t', found', like.mono (Pairing.wider_insert _ _ _)⟩
  extra := by
    intro k t found missing
    obtain ⟨isExtra, unpaired⟩ := alike.extra found missing
    refine ⟨isExtra, fun a b stamp => ?_⟩
    rintro (old | ⟨rfl, rfl⟩)
    · exact unpaired a b stamp old
    · exact alike.wf'.stamp?_ne_next (alike.wf'.holds found) stamp
  all := alike.all

theorem onward_takeStamp (w : Twin) :
    w.Onward ⟨w.stamps.insert w.left.stamps.next w.right.stamps.next, w.left.takeStamp.2,
      w.right.takeStamp.2⟩ :=
  ⟨Pairing.wider_insert _ _ _, id, id, rfl⟩

variable {t t' : Ty}

/-- Both sides have got a new type. -/
theorem add (alike : w.Alike X I)
    (like : t.Like (w.stamps.insert w.left.stamps.next w.right.stamps.next) t')
    (free : w.left.type? t.qname = none) (free' : w.right.type? t'.qname = none)
    (wf : (w.left.add t).WellFormed) (wf' : (w.right.add t').WellFormed) (isI : I t') :
    Alike X I ⟨w.stamps.insert w.left.stamps.next w.right.stamps.next, w.left.add t,
      w.right.add t'⟩ where
  wf := wf
  wf' := wf'
  one := alike.takeStamp.one
  below := alike.takeStamp.below
  models := alike.takeStamp.models
  pending := alike.pending
  known := by
    intro k u found
    rw [ModelSet.add_type? free] at found
    rw [ModelSet.add_type? free', like.qname]
    split at found
    · rename_i same
      cases found
      exact ⟨t', if_pos same, like⟩
    · rename_i other
      obtain ⟨u', found', like'⟩ := alike.takeStamp.known found
      exact ⟨u', (if_neg other).trans found', like'⟩
  extra := by
    intro k u found missing
    rw [ModelSet.add_type? free', like.qname] at found
    rw [ModelSet.add_type? free] at missing
    split at found
    · rename_i same
      rw [if_pos same] at missing
      cases missing
    · rename_i other
      rw [if_neg other] at missing
      exact alike.takeStamp.extra found missing
  all := by
    intro k u found
    rw [ModelSet.add_type? free'] at found
    split at found
    · cases found
      exact isI
    · exact alike.all found

/-- The left side has got a type that the right side has had before. -/
theorem add_left {k : Nat} (alike : w.Alike X I) (found : w.right.type? t.qname = some t')
    (stamp : t'.stamp? = some k) (like : t.Like (w.stamps.insert w.left.stamps.next k) t')
    (free : w.left.type? t.qname = none) (wf : (w.left.add t).WellFormed) :
    Alike X I ⟨w.stamps.insert w.left.stamps.next k, w.left.add t, w.right⟩ where
  wf := wf
  wf' := alike.wf'
  one := alike.one.insert alike.left_new fun a => (alike.extra found free).2 a k stamp
  below := by
    rintro a b (old | ⟨rfl, rfl⟩)
    · exact (alike.below old).imp_left Nat.lt_succ_of_lt
    · exact ⟨Nat.lt_succ_self _, alike.wf'.stamped (alike.wf'.holds found) stamp⟩
  models := alike.models.imp fun _ _ model => model.mono (Pairing.wider_insert _ _ _)
  pending := alike.pending
  known := by
    intro key u known
    rw [ModelSet.add_type? free] at known
    split at known
    · rename_i same
      cases known
      exact ⟨t', same ▸ found, like⟩
    · obtain ⟨u', found', like'⟩ := alike.known known
      exact ⟨u', found', like'.mono (Pairing.wider_insert _ _ _)⟩
  extra := by
    intro key u there missing
    rw [ModelSet.add_type? free] at missing
    split at missing
    · cases missing
    · rename_i other
      obtain ⟨isExtra, unpaired⟩ := alike.extra there missing
      refine ⟨isExtra, fun a b stamped => ?_⟩
      rintro (old | ⟨rfl, rfl⟩)
      · exact unpaired a b stamped old
      · -- Two types of one stamp are one type, so they have one name.
        have same : u = t' := alike.wf'.distinct (alike.wf'.holds there) (alike.wf'.holds found)
          (Ty.same_iff.mpr (.inr ⟨_, stamped, stamp⟩))
        exact other ((alike.wf'.keyed there).symm.trans
          ((congrArg Ty.qname same).trans (alike.wf'.keyed found)))
  all := alike.all

theorem onward_add {k : Nat} (free : w.left.type? t.qname = none) {s : ModelSet}
    (right : ∀ {u}, w.right.Holds u → s.Holds u) :
    w.Onward ⟨w.stamps.insert w.left.stamps.next k, w.left.add t, s⟩ where
  wider := Pairing.wider_insert _ _ _
  holds held := (ModelSet.holds_add_iff free).mpr (.inl held)
  holds' := right
  pending := rfl

end Alike

/-- Both sides hold these types, which are alike. The name of the right one is spelt as names are in
a text of the model. -/
structure Shares (w : Twin) (model : Option String) (t t' : Ty) : Prop where
  like : t.Like w.stamps t'
  held : w.left.Holds t
  held' : w.right.Holds t'
  spelt : Spelt model t'.qname.toList

theorem Shares.mono {w' : Twin} {t t' : Ty} (shares : w.Shares model t t') (onward : w.Onward w') :
    w'.Shares model t t' :=
  ⟨shares.like.mono onward.wider, onward.holds shares.held, onward.holds' shares.held',
    shares.spelt⟩

/-- An extra type that a text of the model can name is named without the model. -/
theorem Setting.qname_eq {t : Ty} {x : String} (setting : Setting X I model) (isExtra : X t)
    (identifier : t.isNamed = true → Shape.isIdentifier t.name.toList = true)
    (plain : Plain t.qname.toList) (same : t.qname = qualify model x) : t.qname = x := by
  cases model with
  | none => exact same
  | some n =>
      have inside : Plain x.toList := by
        intro c member
        refine plain c ?_
        rw [same, toList_qualify]
        simp [member]
      exact absurd same ((setting.foreign isExtra).qname_ne_qualify identifier inside)

namespace Alike

variable {m m' : Model} {x : String}

/-- A name of a named model is never that of an extra type. -/
theorem type?_qualify (alike : w.Alike X I) (setting : Setting X I model)
    (plain : Plain x.toList) (missing : w.left.type? (qualify model x) = none) :
    w.right.type? (qualify model x) = none := by
  refine Option.eq_none_iff_forall_ne_some.mpr fun t found => ?_
  have isExtra := (alike.extra found missing).1
  cases model with
  | none => exact setting.apart rfl t isExtra
  | some n =>
      have identifier := alike.wf'.identifier (alike.wf'.holds found)
      exact (setting.foreign isExtra).qname_ne_qualify identifier plain (alike.wf'.keyed found)

theorem shares (alike : w.Alike X I) {k : String} {t : Ty} (found : w.left.type? k = some t)
    (spelt : Spelt model k.toList) :
    ∃ t', w.right.type? k = some t' ∧ w.Shares model t t' := by
  obtain ⟨t', found', like⟩ := alike.known found
  refine ⟨t', found', like, alike.wf.holds found, alike.wf'.holds found', ?_⟩
  rwa [alike.wf'.keyed found']

/-- A name that the left side knows stands for like types. -/
theorem lookupType_some (alike : w.Alike X I) (setting : Setting X I m.name)
    (name : m'.name = m.name) (plain : Plain x.toList) {t : Ty}
    (found : m.lookupType w.left x = some t) :
    ∃ t', m'.lookupType w.right x = some t' ∧ w.Shares m.name t t' := by
  have own : Spelt m.name (m.qname x).toList := .qualify plain
  unfold Model.lookupType Model.qname at *
  rw [name]
  rcases Option.or_eq_some_iff.mp found with declared | ⟨undeclared, any⟩
  · obtain ⟨t', found', shares⟩ := alike.shares declared own
    exact ⟨t', by rw [found', Option.some_or], shares⟩
  · obtain ⟨t', found', shares⟩ := alike.shares any (.word plain)
    exact ⟨t', by rw [alike.type?_qualify setting plain undeclared, Option.none_or, found'], shares⟩

/-- A name that the left side does not know is unknown, or the name of an extra type. -/
theorem lookupType_none (alike : w.Alike X I) (setting : Setting X I m.name)
    (name : m'.name = m.name) (plain : Plain x.toList) (missing : m.lookupType w.left x = none) :
    m'.lookupType w.right x = none ∨
      ∃ t, X t ∧ w.right.Holds t ∧ t.elements = [] ∧ t.qname = x := by
  unfold Model.lookupType Model.qname at *
  obtain ⟨undeclared, unknown⟩ := Option.or_eq_none_iff.mp missing
  rw [name, alike.type?_qualify setting plain undeclared, Option.none_or]
  cases found : w.right.type? x with
  | none => exact .inl rfl
  | some t =>
      have qname := alike.wf'.keyed found
      refine .inr ⟨t, (alike.extra found unknown).1, alike.wf'.holds found, ?_, qname⟩
      rcases t.elements_eq_nil_or_make with leaf | ⟨c, k, rfl⟩
      · exact leaf
      · exact absurd (qname ▸ plain) Container.not_plain_make

/-- A container over like types is asked for on both sides. -/
theorem request (alike : w.Alike X I) (setting : Setting X I model) {c c' : Container}
    (pairs : c.Pairwise (w.Shares model) c') :
    ∃ R, w.Onward ⟨R, (c.request w.left).2, (c'.request w.right).2⟩ ∧
      Alike X I ⟨R, (c.request w.left).2, (c'.request w.right).2⟩ ∧
      Shares ⟨R, (c.request w.left).2, (c'.request w.right).2⟩ model (c.request w.left).1
        (c'.request w.right).1 := by
  have held : ∀ e ∈ c.elements, w.left.Holds e := pairs.left fun _ _ shares => shares.held
  have held' : ∀ e ∈ c'.elements, w.right.Holds e := pairs.right fun _ _ shares => shares.held'
  have spelt : ∀ e ∈ c'.elements, Spelt model e.qname.toList :=
    pairs.right fun _ _ shares => shares.spelt
  have names (k l : Nat) : (c'.make k).qname = (c.make l).qname :=
    (pairs.qname fun _ _ shares => shares.like).trans Container.make_qname
  obtain ⟨progress, answer⟩ := Container.request_progress (D := fun _ => False) alike.wf held
  obtain ⟨progress', answer'⟩ := Container.request_progress (D := fun _ => False) alike.wf' held'
  have wf := progress.wellFormed
  have wf' := progress'.wellFormed
  rcases c.request_cases w.left with ⟨t, known, result⟩ | ⟨free, result⟩
  · -- Known on the left, so it is known on the right.
    rw [result]
    obtain ⟨t', found, shares⟩ := alike.shares known
      (by rw [← names 0 0]; exact Spelt.make spelt)
    rw [← names 0 0] at found
    rcases c'.request_cases w.right with ⟨u, known', result'⟩ | ⟨free', _⟩
    · rw [result']
      cases found.symm.trans known'
      exact ⟨w.stamps, .refl w, alike, shares⟩
    · rw [names _ 0, ← names 0 0, found] at free'
      cases free'
  · rw [result] at wf answer ⊢
    have like {k : Nat} : (c.make w.left.stamps.next).Like
        (w.stamps.insert w.left.stamps.next k) (c'.make k) :=
      pairs.make (fun _ _ shares => shares.like.mono (Pairing.wider_insert _ _ _))
        (Pairing.insert_self _ _ _)
    rcases c'.request_cases w.right with ⟨u, known', result'⟩ | ⟨free', result'⟩
    · -- The right side has it, from a text that only the right side has read.
      rw [result'] at answer' ⊢
      rw [names 0 w.left.stamps.next] at known'
      have foreign := setting.foreign (alike.extra known' free).1
      have qname := alike.wf'.keyed known'
      obtain ⟨d, k, rfl⟩ : ∃ (d : Container) (k : Nat), u = d.make k := by
        refine u.elements_eq_nil_or_make.resolve_left fun leaf => ?_
        have plain := foreign.plain_qname leaf (alike.wf'.identifier answer')
        exact Container.not_plain_make (qname ▸ plain)
      have same : c' = d := by
        refine Container.eq_of_spelt (n := 0) (k := k) ?_ spelt (by simpa using foreign.2)
          fun e inside e' inside' name => ?_
        · rw [names 0 w.left.stamps.next, qname]
        · exact (held' e inside).unique (alike.wf'.elements answer' (by simpa using inside')) name
      subst same
      exact ⟨_, onward_add free id, alike.add_left known' Container.make_stamp? like free wf,
        like, answer, answer', Spelt.make spelt⟩
    · rw [result'] at progress' wf' answer' ⊢
      exact ⟨_, onward_add free progress'.holds,
        alike.add like free free' wf wf' (setting.container spelt), like, answer, answer',
        Spelt.make spelt⟩

end Alike

end Twin

/-- To register a type with a new stamp is to add it, unless its name is taken. -/
theorem ModelSet.register_eq {s : ModelSet} {t : Ty} (wf : s.WellFormed)
    (stamp : t.stamp? = some s.stamps.next) : s.takeStamp.2.register t.qname t =
      if (s.type? t.qname).isSome then .error (.typeAlreadyRegistered t.qname)
      else .ok (s.add t) := by
  cases taken : s.type? t.qname with
  | none =>
      simp only [register, takeStamp_type?, taken]
      rfl
  | some known =>
      have other : known.same t = false := by
        refine Bool.eq_false_iff.mpr fun same => ?_
        rcases Ty.same_iff.mp same with ⟨p, _, rfl⟩ | ⟨k, old, new⟩
        · cases stamp
        · cases stamp.symm.trans new
          exact wf.stamp?_ne_next (wf.holds taken) old
      simp only [register, takeStamp_type?, taken, other]
      rfl

theorem ModelSet.abandon_type?_iff {s : ModelSet} {n k : String} {t : Ty} (wf : s.WellFormed) :
    (s.abandon n).type? k = some t ↔ s.type? k = some t ∧ t.ownedBy n = false := by
  have step : (s.abandon n).type? k = (s.type? k).filter fun u => !u.ownedBy n :=
    lookup_filter_of_nodup _ _ wf.nodup
  rw [step, Option.filter_eq_some_iff, Bool.not_eq_true']

namespace Twin

variable {X I : Ty → Prop} {w : Twin} {m m' : Model}

/-- Both sides build models that are alike. -/
structure Drafts (X I : Ty → Prop) (w : Twin) (m m' : Model) : Prop where
  alike : w.Alike X I
  setting : Setting X I m.name
  pending : ∀ n, m.name = some n → w.left.isPending n = true
  like : m.Like w.stamps m'

namespace Drafts

theorem mono {w' : Twin} (drafts : w.Drafts X I m m') (onward : w.Onward w')
    (alike : w'.Alike X I) : w'.Drafts X I m m' where
  alike := alike
  setting := drafts.setting
  pending n name := by
    rw [ModelSet.isPending, onward.pending]
    exact drafts.pending n name
  like := drafts.like.mono onward.wider

/-- The models have got declarations that are alike and need no new type. -/
theorem next (drafts : w.Drafts X I m m') {m₁ m₁' : Model} (name : m₁.name = m.name)
    (like : m₁.Like w.stamps m₁') : w.Drafts X I m₁ m₁' where
  alike := drafts.alike
  setting := name ▸ drafts.setting
  pending := name ▸ drafts.pending
  like := like

theorem knows (drafts : w.Drafts X I m m') {n : String} (name : m.name = some n) :
    w.left.Knows n ∧ w.right.Knows n := by
  have pending := drafts.pending n name
  exact ⟨.inr pending, .inr ((drafts.alike.isPending n).trans pending)⟩

/-- A type of the model is registered on both sides, or its name is taken on both. -/
theorem register (drafts : w.Drafts X I m m') {t t' : Ty}
    (like : t.Like (w.stamps.insert w.left.stamps.next w.right.stamps.next) t')
    (stamp : t.stamp? = some w.left.stamps.next) (stamp' : t'.stamp? = some w.right.stamps.next)
    (isNamed : t.isNamed = true) (owner : t.modelName? = m.name)
    (identifier : Shape.isIdentifier t.name.toList = true) :
    Agree (fun s s' =>
        let w' : Twin := ⟨w.stamps.insert w.left.stamps.next w.right.stamps.next, s, s'⟩
        w.Onward w' ∧ w'.Alike X I)
      (w.left.takeStamp.2.register t.qname t) (w.right.takeStamp.2.register t'.qname t') := by
  obtain ⟨alike, setting, _, _⟩ := id drafts
  have isNamed' : t'.isNamed = true := like.isNamed.trans isNamed
  have owner' : t'.modelName? = m.name := like.modelName?.trans owner
  rw [ModelSet.register_eq alike.wf stamp, ModelSet.register_eq alike.wf' stamp', like.qname]
  cases taken : w.left.type? t.qname with
  | some known =>
      obtain ⟨known', taken', _⟩ := alike.known taken
      rw [taken']
      exact .error _
  | none =>
      have qname : t.qname = qualify m.name t.name := by rw [t.qname_eq_qualify, owner]
      have free : w.right.type? t.qname = none := by
        rw [qname] at taken ⊢
        exact alike.type?_qualify setting (Shape.plain_of_isIdentifier identifier) taken
      have free' : w.right.type? t'.qname = none := like.qname ▸ free
      rw [free]
      have wf : (w.left.add t).WellFormed :=
        alike.wf.add taken stamp (by simp [Ty.elements_eq_nil_of_isNamed isNamed])
          (fun _ => identifier) fun n declares => (drafts.knows (owner ▸ declares)).1
      have wf' : (w.right.add t').WellFormed :=
        alike.wf'.add free' stamp' (by simp [Ty.elements_eq_nil_of_isNamed isNamed'])
          (fun _ => like.name ▸ identifier) fun n declares => (drafts.knows (owner' ▸ declares)).2
      refine .ok ⟨Alike.onward_add taken fun held => ?_, ?_⟩
      · exact (ModelSet.holds_add_iff free').mpr (.inl held)
      · exact alike.add like taken free' wf wf' (setting.declared isNamed' owner')

variable {name : String}

theorem addEnum (drafts : w.Drafts X I m m') {b b' : Enumeration} (body : b.Like w.stamps b')
    (identifier : Shape.isIdentifier name.toList = true) :
    Agree (fun p p' => ∃ R, w.Onward ⟨R, p.2.2, p'.2.2⟩ ∧
        Drafts X I ⟨R, p.2.2, p'.2.2⟩ p.2.1 p'.2.1)
      (m.addEnum w.left name b) (m'.addEnum w.right name b') := by
  obtain ⟨alike, setting, _, like⟩ := id drafts
  have wider := w.stamps.wider_insert w.left.stamps.next w.right.stamps.next
  have paired := w.stamps.insert_self w.left.stamps.next w.right.stamps.next
  unfold Model.addEnum
  rw [like.checkNew alike.models, like.name]
  refine .bind (.self _) fun _ _ _ => ?_
  have type : (Ty.enum w.left.stamps.next m.name name b).Like _
      (.enum w.right.stamps.next m.name name b') := .enum paired (body.mono wider)
  refine .bind (drafts.register type rfl rfl rfl rfl identifier) ?_
  rintro s s' ⟨onward, alike'⟩
  have grown := drafts.mono onward alike'
  refine .ok ⟨_, onward, alike', setting, grown.pending, { grown.like with
    name := rfl
    elements := List.rel_append grown.like.elements ?_
    enums := List.rel_append grown.like.enums (.cons type .nil) }⟩
  refine List.forall₂_map_left_iff.mpr (List.forall₂_map_right_iff.mpr ?_)
  exact body.elements.imp fun _ _ element => ⟨by rw [element.name], element.mono wider⟩

theorem addRecord (drafts : w.Drafts X I m m') {isException : Bool} {b b' : Record Ty}
    (body : b.Alike b') (identifier : Shape.isIdentifier name.toList = true) :
    Agree (fun p p' => ∃ R, w.Onward ⟨R, p.2.2, p'.2.2⟩ ∧
        Drafts X I ⟨R, p.2.2, p'.2.2⟩ p.2.1 p'.2.1)
      (m.addRecord w.left isException name b) (m'.addRecord w.right isException name b') := by
  obtain ⟨alike, setting, _, like⟩ := id drafts
  have paired := w.stamps.insert_self w.left.stamps.next w.right.stamps.next
  unfold Model.addRecord
  rw [like.checkNew alike.models, like.name]
  refine .bind (.self _) fun _ _ _ => ?_
  have type : (Ty.record w.left.stamps.next isException m.name name b).Like _
      (.record w.right.stamps.next isException m.name name b') := .record paired body
  refine .bind (drafts.register type rfl rfl rfl rfl identifier) ?_
  rintro s s' ⟨onward, alike'⟩
  have grown := drafts.mono onward alike'
  cases isException with
  | true =>
      exact .ok ⟨_, onward, alike', setting, grown.pending, { grown.like with
        name := rfl
        exceptions := List.rel_append grown.like.exceptions (.cons type .nil) }⟩
  | false =>
      exact .ok ⟨_, onward, alike', setting, grown.pending, { grown.like with
        name := rfl
        structs := List.rel_append grown.like.structs (.cons type .nil) }⟩

end Drafts

namespace Alike

variable {n : String}

theorem knows_iff (alike : w.Alike X I) : w.right.Knows n ↔ w.left.Knows n := by
  unfold ModelSet.Knows
  rw [alike.isLoaded, alike.isPending]

theorem reserve (alike : w.Alike X I) (unknown : ¬ w.left.Knows n) :
    Alike X I ⟨w.stamps, w.left.reserve n, w.right.reserve n⟩ where
  wf := alike.wf.reserve unknown
  wf' := alike.wf'.reserve (unknown ∘ alike.knows_iff.mp)
  one := alike.one
  below := alike.below
  models := alike.models
  pending := congrArg (n :: ·) alike.pending
  known := alike.known
  extra := alike.extra
  all := alike.all

theorem finish (alike : w.Alike X I) (like : m.Like w.stamps m')
    (wf : (w.left.finish m).WellFormed) (wf' : (w.right.finish m').WellFormed) :
    Alike X I ⟨w.stamps, w.left.finish m, w.right.finish m'⟩ where
  wf := wf
  wf' := wf'
  one := alike.one
  below paired := by simpa using alike.below paired
  models := by
    unfold ModelSet.finish
    rw [like.name]
    cases m.name with
    | none => exact alike.models
    | some n => exact List.rel_append alike.models (.cons like .nil)
  pending := by
    unfold ModelSet.finish
    rw [like.name]
    cases m.name with
    | none => exact alike.pending
    | some n => exact congrArg (List.filter (· ≠ n)) alike.pending
  known found := by simpa using alike.known (by simpa using found)
  extra found missing := alike.extra (by simpa using found) (by simpa using missing)
  all found := alike.all (by simpa using found)

/-- What a failed model owned is gone on both sides, and the extra types stay. -/
theorem abandon (alike : w.Alike X I) (pending : w.left.isPending n = true) :
    Alike X I ⟨w.stamps, w.left.abandon n, w.right.abandon n⟩ where
  wf := alike.wf.abandon pending
  wf' := alike.wf'.abandon ((alike.isPending n).trans pending)
  one := alike.one
  below := alike.below
  models := alike.models
  pending := congrArg (List.filter (· ≠ n)) alike.pending
  known := by
    intro k t found
    obtain ⟨known, kept⟩ := (ModelSet.abandon_type?_iff alike.wf).mp found
    obtain ⟨t', known', like⟩ := alike.known known
    exact ⟨t', (ModelSet.abandon_type?_iff alike.wf').mpr ⟨known', (like.ownedBy n).trans kept⟩,
      like⟩
  extra := by
    intro k t found missing
    obtain ⟨known', kept⟩ := (ModelSet.abandon_type?_iff alike.wf').mp found
    refine alike.extra known' (Option.eq_none_iff_forall_ne_some.mpr fun u known => ?_)
    obtain ⟨u', same, like⟩ := alike.known known
    cases known'.symm.trans same
    rw [(ModelSet.abandon_type?_iff alike.wf).mpr ⟨known, (like.ownedBy n).symm.trans kept⟩]
      at missing
    cases missing
  all found := alike.all ((ModelSet.abandon_type?_iff alike.wf').mp found).1

end Alike

end Twin

end IdlGen
