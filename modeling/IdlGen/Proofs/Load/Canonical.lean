import IdlGen.Proofs.Load.Session

/-!
# Canonical containers

The registry knows a container by its name. As long as no model has a mark of containers in its
name, this is as good as knowing it by its constructor and its elements: a request gives a container
over the very types it was made for. Since a container stays in the registry as long as its elements
do, this also holds between any two moments of a session, and for constructions of any depth.
-/

namespace IdlGen

/-- No model, loaded or being built, has a mark of container names in its own name. -/
def ModelSet.PlainNames (s : ModelSet) : Prop :=
  (∀ m ∈ s.models, ∀ n ∈ m.name, Plain n.toList) ∧ ∀ n ∈ s.pending, Plain n.toList

instance (s : ModelSet) : Decidable s.PlainNames :=
  inferInstanceAs (Decidable ((∀ m ∈ s.models, ∀ n ∈ m.name, Plain n.toList) ∧
    ∀ n ∈ s.pending, Plain n.toList))

namespace ModelSet

variable {s s' : ModelSet} {t u : Ty} {c : Container}

theorem PlainNames.of_knows (plain : s.PlainNames) {n : String} (known : s.Knows n) :
    Plain n.toList := by
  rcases known with loaded | pending
  · obtain ⟨m, member, name⟩ := isLoaded_iff.mp loaded
    exact plain.1 m member n name
  · exact plain.2 n (isPending_iff.mp pending)

theorem WellFormed.plain_of_isNamed (wf : s.WellFormed) (plain : s.PlainNames) (held : s.Holds t)
    (named : t.isNamed = true) : Plain t.qname.toList := by
  rw [t.qname_eq_qualify]
  refine plain_qualify (fun n declares => plain.of_knows (wf.known held declares)) ?_
  exact Shape.plain_of_isIdentifier (wf.identifier held named)

/-- A registered type is a container, or its name is plain. -/
theorem WellFormed.container_or_plain (wf : s.WellFormed) (plain : s.PlainNames)
    (held : s.Holds t) : (∃ c n, t = Container.make c n) ∨ Plain t.qname.toList := by
  cases t with
  | prim p => exact .inr p.plain_name
  | list n e => exact .inl ⟨.list e, n, rfl⟩
  | set n e => exact .inl ⟨.set e, n, rfl⟩
  | map n k v => exact .inl ⟨.map k v, n, rfl⟩
  | enum | record => exact .inr (wf.plain_of_isNamed plain held rfl)

theorem WellFormed.enclosed (wf : s.WellFormed) (plain : s.PlainNames) (held : s.Holds t) :
    Enclosed t.qname.toList := by
  induction t using Ty.elements_induction with
  | leaf t leaf =>
      rcases wf.container_or_plain plain held with ⟨c, n, rfl⟩ | plain
      · exact absurd (c.make_elements ▸ leaf) c.elements_ne_nil
      · exact .of_plain plain
  | container c n ih =>
      refine c.enclosed_make fun e member => ih e member (wf.elements held ?_)
      rwa [c.make_elements]

end ModelSet

namespace Container

variable {s s' : ModelSet} {c d : Container} {n k : Nat}

/-- A request gives a container over the very types it was made for. -/
theorem request_make (wf : s.WellFormed) (plain : s.PlainNames)
    (held : ∀ e ∈ c.elements, s.Holds e) : ∃ n, (c.request s).1 = c.make n := by
  rcases c.request_cases s with ⟨known, found, result⟩ | ⟨_, result⟩
  · have heldKnown := wf.holds found
    have name : known.qname = (c.make 0).qname := wf.keyed found
    rcases wf.container_or_plain plain heldKnown with ⟨d, n, rfl⟩ | plainName
    · have heldInner : ∀ e ∈ d.elements, s.Holds e :=
        fun e member => wf.elements heldKnown (d.make_elements ▸ member)
      have same : d = c := by
        refine eq_of_qname_make name ?_ ?_ ?_
        · exact fun e member => wf.enclosed plain (heldInner e member)
        · exact fun e member => wf.enclosed plain (held e member)
        · exact fun e member e' member' => (heldInner e member).unique (held e' member')
      exact ⟨n, by rw [result, same]⟩
    · exact absurd (name ▸ plainName) c.not_plain_make
  · exact ⟨_, by rw [result]⟩

/-- A request over registered types, at the end of a piece of work. -/
theorem request_spec {D : Ty → Prop} (progress : s.Progress D s') (plain : s'.PlainNames)
    (held : ∀ e ∈ c.elements, s'.Holds e) :
    s.Progress D (c.request s').2 ∧ (c.request s').2.PlainNames ∧
      (c.request s').2.Holds (c.request s').1 ∧ ∃ n, (c.request s').1 = c.make n := by
  have wf := progress.wellFormed
  obtain ⟨further, answer⟩ := request_progress (D := D) wf held
  refine ⟨progress.trans further, ?_, answer, request_make wf plain held⟩
  unfold ModelSet.PlainNames
  rwa [request_models, request_pending]

/-- A container that is registered at one moment, and again at a later one, is the same. -/
theorem make_eq_of_evolves (wf' : s'.WellFormed) (evolves : s.Evolves s')
    (first : s.Holds (c.make n)) (second : s'.Holds (c.make k)) : c.make n = c.make k := by
  have retained : s'.Holds (c.make n) := by
    refine evolves.retains first (c.make_elements ▸ c.elements_ne_nil) fun e member => ?_
    rw [c.make_elements] at member
    exact wf'.elements second (c.make_elements.symm ▸ member)
  exact retained.unique second c.make_qname

/-- The same constructor, over the same types. -/
def same : Container → Container → Bool
  | list e, list e' => e.same e'
  | set e, set e' => e.same e'
  | map k v, map k' v' => k.same k' && v.same v'
  | _, _ => false

@[simp] theorem same_self : c.same c = true := by
  cases c <;> simp [same]

/-- Containers over types of two moments are the same only if they are equal. -/
theorem eq_of_same (wf : s.WellFormed) (evolves : s.Evolves s')
    (held : ∀ e ∈ c.elements, s.Holds e) (held' : ∀ e ∈ d.elements, s'.Holds e)
    (h : c.same d = true) : c = d := by
  cases c <;> cases d <;> simp [same] at h held held'
  case list.list e e' => rw [evolves.eq_of_same wf held held' h]
  case set.set e e' => rw [evolves.eq_of_same wf held held' h]
  case map.map k v k' v' =>
    rw [evolves.eq_of_same wf held.1 held'.1 h.1, evolves.eq_of_same wf held.2 held'.2 h.2]

/-- The answers to two requests are the same type exactly if the containers are the same. -/
theorem request_same (wf : s.WellFormed) (wf' : s'.WellFormed)
    (evolves : (c.request s).2.Evolves s') (plain : s.PlainNames) (plain' : s'.PlainNames)
    (held : ∀ e ∈ c.elements, s.Holds e) (held' : ∀ e ∈ d.elements, s'.Holds e) :
    (c.request s).1.same (d.request s').1 = c.same d := by
  obtain ⟨progress, answer⟩ := request_progress (D := fun _ => False) wf held
  obtain ⟨progress', answer'⟩ := request_progress (D := fun _ => False) wf' held'
  obtain ⟨n, made⟩ := request_make wf plain held
  obtain ⟨k, made'⟩ := request_make wf' plain' held'
  have between := evolves.trans progress.wellFormed (.of_setback progress'.setback)
  rw [made] at answer ⊢
  rw [made'] at answer' ⊢
  refine Bool.eq_iff_iff.mpr ⟨fun same => ?_, fun same => ?_⟩
  · rw [eq_of_make (between.eq_of_same progress.wellFormed answer answer' same)]
    exact same_self
  · have equal : c = d :=
      eq_of_same progress.wellFormed evolves (fun e member => progress.holds (held e member)) held'
        same
    subst equal
    rw [make_eq_of_evolves progress'.wellFormed between answer answer']
    exact Ty.same_self _

end Container

/-- How a type is built from others by requests. -/
inductive Construction where
  | type (t : Ty)
  | list (elem : Construction)
  | set (elem : Construction)
  | map (key value : Construction)

namespace Construction

/-- Makes all containers from the inside out, a key before its value. -/
def build (s : ModelSet) : Construction → Ty × ModelSet
  | type t => (t, s)
  | list x =>
    let (e, s) := x.build s
    s.listType e
  | set x =>
    let (e, s) := x.build s
    s.setType e
  | map x y =>
    let (k, s) := x.build s
    let (v, s) := y.build s
    s.mapType k v

/-- The types that a construction starts from are registered. -/
def Over (s : ModelSet) : Construction → Prop
  | type t => s.Holds t
  | list x => x.Over s
  | set x => x.Over s
  | map x y => x.Over s ∧ y.Over s

/-- The same constructors in the same places, down to the same types. -/
def agrees : Construction → Construction → Bool
  | type t, type u => t.same u
  | list x, list y => x.agrees y
  | set x, set y => x.agrees y
  | map x y, map x' y' => x.agrees x' && y.agrees y'
  | _, _ => false

end Construction

/-- The construction of a type from types that are no containers. -/
def Ty.expand : Ty → Construction
  | list _ e => .list e.expand
  | set _ e => .set e.expand
  | map _ k v => .map k.expand v.expand
  | t => .type t

namespace Construction

/-- The same construction, where also the types that it starts from are taken apart. -/
def expand : Construction → Construction
  | type t => t.expand
  | list x => .list x.expand
  | set x => .set x.expand
  | map x y => .map x.expand y.expand

variable {D : Ty → Prop} {s s' : ModelSet} {x y : Construction}

@[simp] theorem agrees_self (x : Construction) : x.agrees x = true := by
  induction x with
  | type t => exact t.same_self
  | list x ih | set x ih => exact ih
  | map x y ihx ihy => simp [agrees, ihx, ihy]

theorem Over.mono (based : x.Over s) (holds : ∀ {t}, s.Holds t → s'.Holds t) : x.Over s' := by
  induction x with
  | type t => exact holds based
  | list x ih | set x ih => exact ih based
  | map x y ihx ihy => exact ⟨ihx based.1, ihy based.2⟩

/-- What a construction gives is registered, and made as the construction says. -/
theorem build_spec (wf : s.WellFormed) (plain : s.PlainNames) (based : x.Over s) :
    s.Progress D (x.build s).2 ∧ (x.build s).2.PlainNames ∧
      (x.build s).2.Holds (x.build s).1 ∧ (x.build s).1.expand = x.expand := by
  induction x generalizing s with
  | type t => exact ⟨.refl wf, plain, based, rfl⟩
  | list x ih =>
      obtain ⟨progress, plain', held, expanded⟩ := ih wf plain based
      obtain ⟨further, plain'', answer, n, made⟩ :=
        Container.request_spec (c := .list (x.build s).1) progress plain' (by simpa using held)
      exact ⟨further, plain'', answer, (congrArg Ty.expand made).trans (congrArg list expanded)⟩
  | set x ih =>
      obtain ⟨progress, plain', held, expanded⟩ := ih wf plain based
      obtain ⟨further, plain'', answer, n, made⟩ :=
        Container.request_spec (c := .set (x.build s).1) progress plain' (by simpa using held)
      exact ⟨further, plain'', answer, (congrArg Ty.expand made).trans (congrArg set expanded)⟩
  | map x y ihx ihy =>
      obtain ⟨first, plainKey, key, expandedKey⟩ := ihx wf plain based.1
      obtain ⟨second, plainValue, value, expandedValue⟩ :=
        ihy first.wellFormed plainKey (based.2.mono first.holds)
      obtain ⟨further, plain', answer, n, made⟩ :=
        Container.request_spec (c := .map (x.build s).1 (y.build (x.build s).2).1)
          (first.trans second) plainValue (by simpa using ⟨second.holds key, value⟩)
      refine ⟨further, plain', answer, (congrArg Ty.expand made).trans ?_⟩
      exact congrArg₂ map expandedKey expandedValue

end Construction

theorem Ty.expand_of_leaf {t : Ty} (leaf : t.elements = []) : t.expand = .type t := by
  cases t with
  | list | set | map => cases leaf
  | prim | enum | record => rfl

/-- Types of two moments that are made of the same types in the same way are equal. -/
theorem Ty.eq_of_agrees {s s' : ModelSet} {t u : Ty} (wf : s.WellFormed) (wf' : s'.WellFormed)
    (evolves : s.Evolves s') (held : s.Holds t) (held' : s'.Holds u)
    (agree : t.expand.agrees u.expand = true) : t = u := by
  induction t using Ty.elements_induction generalizing u with
  | leaf t leaf =>
      rw [expand_of_leaf leaf] at agree
      cases u with
      | list | set | map => cases agree
      | prim | enum | record => exact evolves.eq_of_same wf held held' agree
  | container c n ih =>
      have inner : ∀ e ∈ c.elements, s.Holds e :=
        fun e member => wf.elements held (c.make_elements.symm ▸ member)
      -- Once the elements are equal, the container is the one that was kept.
      have kept : ∀ k, u = c.make k → c.make n = u := by
        rintro k rfl
        exact Container.make_eq_of_evolves wf' evolves held held'
      have same : ∀ e ∈ c.elements, ∀ e' ∈ u.elements, e.expand.agrees e'.expand = true → e = e' :=
        fun e member e' member' => ih e member (inner e member) (wf'.elements held' member')
      cases c <;> cases u <;> try cases agree
      case list.list e k e' =>
        have elem := same e (by simp) e' (by simp [elements]) agree
        exact kept k (by rw [elem]; rfl)
      case set.set e k e' =>
        have elem := same e (by simp) e' (by simp [elements]) agree
        exact kept k (by rw [elem]; rfl)
      case map.map key value k key' value' =>
        obtain ⟨agreeKey, agreeValue⟩ := Bool.and_eq_true_iff.mp agree
        have left := same key (by simp) key' (by simp [elements]) agreeKey
        have right := same value (by simp) value' (by simp [elements]) agreeValue
        exact kept k (by rw [left, right]; rfl)

/-- Types of two moments are the same if they are made of the same types in the same way. -/
theorem Ty.same_eq_agrees {s s' : ModelSet} {t u : Ty} (wf : s.WellFormed) (wf' : s'.WellFormed)
    (evolves : s.Evolves s') (held : s.Holds t) (held' : s'.Holds u) :
    t.same u = t.expand.agrees u.expand := by
  refine Bool.eq_iff_iff.mpr ⟨fun same => ?_, fun agree => ?_⟩
  · rw [evolves.eq_of_same wf held held' same]
    exact u.expand.agrees_self
  · rw [Ty.eq_of_agrees wf wf' evolves held held' agree]
    exact u.same_self

namespace Session

open LoadM

variable {s : ModelSet}

/-- Where model names are plain, a container is made of exactly the types that were asked for. The
answers to two requests, also at different moments, are the same type exactly if the constructors
and the types they are applied to are the same; and so for constructions of any depth. -/
theorem containers_canonical (moment : Moment s) (plain : s.PlainNames) :
    (∀ e, s.Holds e → ∃ n, (s.listType e).1 = .list n e) ∧
      (∀ e, s.Holds e → ∃ n, (s.setType e).1 = .set n e) ∧
      (∀ k v, s.Holds k → s.Holds v → ∃ n, (s.mapType k v).1 = .map n k v) ∧
      (∀ (c d : Container) s', (∀ e ∈ c.elements, s.Holds e) → Later (c.request s).2 s' →
        s'.PlainNames → (∀ e ∈ d.elements, s'.Holds e) →
        (c.request s).1.same (d.request s').1 = c.same d) ∧
      ∀ (x y : Construction) s', x.Over s → Later (x.build s).2 s' → s'.PlainNames → y.Over s' →
        (x.build s).1.same (y.build s').1 = x.expand.agrees y.expand := by
  have wf := moment.wellFormed
  refine ⟨?_, ?_, ?_, ?_, ?_⟩
  · exact fun e held => (Container.list e).request_make wf plain (by simpa using held)
  · exact fun e held => (Container.set e).request_make wf plain (by simpa using held)
  · exact fun k v key value =>
      (Container.map k v).request_make wf plain (by simpa using ⟨key, value⟩)
  · intro c d s' held later plain' held'
    have progress := (c.request_progress (D := fun _ => False) wf held).1
    obtain ⟨wf', evolves⟩ := later.evolves progress.wellFormed
    exact c.request_same wf wf' evolves plain plain' held held'
  · intro x y s' based later plain' based'
    obtain ⟨progress, _, held, expanded⟩ := x.build_spec (D := fun _ => False) wf plain based
    obtain ⟨wf', evolves⟩ := later.evolves progress.wellFormed
    obtain ⟨progress', _, held', expanded'⟩ := y.build_spec (D := fun _ => False) wf' plain' based'
    have between := evolves.trans progress.wellFormed (.of_setback progress'.setback)
    rw [Ty.same_eq_agrees progress.wellFormed progress'.wellFormed between held held', expanded,
      expanded']

/-- The same map before and after a text that fails, and a map to sets in place of lists. -/
theorem containers_canonical_after_failure :
    let text := Construction.type (.prim .string)
    let number := Construction.type (.prim (.int .w32))
    let x := Construction.map text (.list number)
    let call :=
      Call.parse "m" "struct S \x7b 1: map<string,list<i32>> f, 2: list<S> s \x7d" .nowhere
    let s := ((call.run (.empty []) 0).exec ⟨(x.build .empty).2, []⟩).2.set
    s.isLoaded "m" = false ∧ (x.build .empty).1.same (x.build s).1 = true ∧
      (x.build .empty).1.same ((Construction.map text (.set number)).build s).1 = false := by
  intro text number x call s
  have later : Later (x.build .empty).2 s := .step (.refl _) (.call _ _ _ call [])
  have based : ∀ s' : ModelSet, s'.WellFormed → text.Over s' ∧ number.Over s' :=
    fun s' wf => ⟨wf.primitive _ (by decide), wf.primitive _ (by decide)⟩
  have start := based .empty .empty
  have plain : ModelSet.empty.PlainNames := by decide
  have plain' : s.PlainNames := by decide +kernel
  have built := x.build_spec (D := fun _ => False) .empty plain start
  have wf := (later.evolves built.1.wellFormed).1
  have canonical := (containers_canonical (.refl _) plain).2.2.2.2 x
  refine ⟨by decide +kernel, ?_, ?_⟩
  · exact canonical x s start later plain' (based s wf)
  · exact canonical _ s start later plain' (based s wf)

end Session

end IdlGen
