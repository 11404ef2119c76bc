import IdlGen.Proofs.Idl.TypeNames
import IdlGen.Proofs.Load.References

/-!
# Names that lead back to their types

In a session that reads no text without a name, every registered type without elements is a
primitive or belongs to a loaded model. If the names of models are identifiers, the name of any
registered type is thus made of words that are no keywords. So it is read back as the type in every
model, unless a type of that model takes one of the words.
-/

namespace IdlGen

namespace ModelSet

variable {s s' : ModelSet} {t : Ty}

/-- Every type without elements is a primitive that can be named, or belongs to a model. -/
def Attributed (s : ModelSet) : Prop :=
  ∀ t, s.Holds t → t.elements = [] →
    (∃ p ∈ Primitive.nameable, t = .prim p) ∨ ∃ n, t.modelName? = some n

/-- The names of all loaded models are identifiers. -/
def IdentifierNames (s : ModelSet) : Prop :=
  ∀ m ∈ s.models, ∀ n ∈ m.name, Shape.isIdentifier n.toList

@[simp] theorem Attributed.empty : ModelSet.empty.Attributed := by
  intro t held _
  obtain ⟨front, back, split, _⟩ := List.lookup_eq_some_iff.mp held
  have member : (t.qname, t) ∈ ModelSet.empty.types := by simp [split]
  obtain ⟨p, nameable, entry⟩ := List.mem_map.mp member
  exact .inl ⟨p, nameable, (Prod.mk.inj entry).2.symm⟩

/-- New types belong to models, if nothing else is declared. -/
theorem Setback.attributed (setback : s.Setback (fun _ => False) s') (attributed : s.Attributed) :
    s'.Attributed := by
  intro t held leaf
  by_cases old : s.Holds t
  · exact attributed t old leaf
  · obtain ⟨new, advance, _⟩ := setback
    have owned : t.isNamed → ∃ n, t.modelName? = some n := by
      intro named
      rcases advance.named held old named with none | ⟨n, declares, _⟩
      · cases none
      · exact ⟨n, declares⟩
    cases t with
    | list | set | map => cases leaf
    | enum | record => exact .inr (owned rfl)
    | prim p =>
        obtain ⟨k, stamp, _⟩ := advance.stamp held old
        cases stamp

/-- A type without elements is named by a word that is no keyword. -/
theorem WellFormed.typeWord_of_leaf (wf : s.WellFormed) (attributed : s.Attributed)
    (loaded : s.pending = []) (names : s.IdentifierNames) (held : s.Holds t)
    (leaf : t.elements = []) :
    Shape.IsTypeWord t.qname.toList ∧ t.qname ∉ Idl.typeKeywords := by
  rcases attributed t held leaf with ⟨p, nameable, rfl⟩ | ⟨n, declares⟩
  · have primitives : ∀ p ∈ Primitive.nameable,
        Shape.isIdentifier p.name.toList ∧ p.name ∉ Idl.typeKeywords := by
      decide +kernel
    obtain ⟨identifier, other⟩ := primitives p nameable
    exact ⟨.inl identifier, other⟩
  · have model : Shape.isIdentifier n.toList := by
      rcases wf.known held declares with known | pending
      · obtain ⟨m, member, name⟩ := isLoaded_iff.mp known
        exact names m member n name
      · rw [isPending_iff, loaded] at pending
        cases pending
    have name := wf.identifier held (Ty.isNamed_of_modelName? declares)
    have whole : t.qname.toList = n.toList ++ '.' :: t.name.toList := by
      rw [t.qname_eq_qualify, declares]
      simp [qualify]
    refine ⟨.inr ⟨_, _, whole, model, name⟩, fun keyword => ?_⟩
    -- A type of a model may well be called `list`, but with the model's name it is no keyword.
    have pointless : ∀ keyword ∈ Idl.typeKeywords, '.' ∉ keyword.toList := by decide
    exact pointless _ keyword (by rw [whole]; simp)

end ModelSet

namespace Session

open Idl LoadM

variable {s s' : ModelSet}

/-- A call that parses or loads a model under a name. -/
inductive NamedStep : ModelSet → ModelSet → Prop
  | parse (s : ModelSet) (files : FileTree) (depth : Nat) (name text : String) (origin : SourceRef)
      (log : List LoadEvent) :
      NamedStep s (((Call.parse name text origin).run files depth).exec ⟨s, log⟩).2.set
  | load (s : ModelSet) (files : FileTree) (depth : Nat) (source : SourceRef)
      (log : List LoadEvent) :
      NamedStep s (((Call.load source).run files depth).exec ⟨s, log⟩).2.set

theorem NamedStep.step (named : NamedStep s s') : Step s s' := by
  cases named with
  | parse files depth name text origin log =>
      exact .call s files depth (.parse name text origin) log
  | load files depth source log => exact .call s files depth (.load source) log

theorem NamedStep.setback (named : NamedStep s s') (wf : s.WellFormed) :
    s.Setback (fun _ => False) s' := by
  cases named with
  | parse files depth name text origin log =>
      have steady : (Load.loadInclude files depth).Steady := Load.loadInclude_steady depth
      exact (Load.parseWith_leaves (σ := ⟨s, log⟩) steady wf).declares.setback
  | load files depth source log =>
      have steady : (Load.loadInclude files depth).Steady := Load.loadInclude_steady depth
      exact (Load.loadWith_leaves (σ := ⟨s, log⟩) steady wf).declares.setback

/-- Any number of calls for models with a name, each of which may fail. -/
def NamedLeads : ModelSet → ModelSet → Prop := Relation.ReflTransGen NamedStep

theorem NamedLeads.leads (session : NamedLeads s s') : Leads s s' :=
  Relation.ReflTransGen.mono (fun _ _ named => NamedStep.step named) _ _ session

theorem NamedLeads.attributed (session : NamedLeads .empty s) : s.Attributed := by
  induction session with
  | refl => exact .empty
  | tail front named ih =>
      have wf := (NamedLeads.leads front).wellFormed .empty
      exact (named.setback wf).attributed ih

/-- The name of a registered type leads back to it. In any model none of whose types is called by
the model's name and a word of the type's name, the text of the name is read as a type: all its
tokens are taken, the answer is the very type that is registered, and the set stays as it is. -/
theorem typeExpr_qname (session : NamedLeads .empty s) (names : s.IdentifierNames) {key : String}
    {ty : Ty} (registered : s.type? key = some ty) (m : Model)
    (free : ∀ leaf ∈ ty.leaves, s.type? (m.qname leaf.qname) = none) (file : String) :
    ∃ ts, tokenizeFile .idl file ty.qname = .ok ts ∧ ∀ r declaring log, ∃ shorter,
      (typeExpr r m declaring false ts.tokens).exec ⟨s, log⟩ =
        (.ok ⟨ty, [], shorter⟩, ⟨s, log⟩) := by
  have wf := session.leads.wellFormed .empty
  have held := wf.parts (wf.holds registered)
  have words : ∀ leaf ∈ ty.leaves,
      Shape.IsTypeWord leaf.qname.toList ∧ leaf.qname ∉ typeKeywords := by
    intro leaf listed
    obtain ⟨part, none⟩ := List.mem_filter.mp listed
    exact wf.typeWord_of_leaf session.attributed session.leads.pending names (held leaf part)
      (List.isEmpty_iff.mp none)
  have cut : Language.definitions.Cut ty.qname.toList (ty.readings.map .ofReading) [] := by
    have ended : Language.Stops [] := fun c none => by cases none
    simpa using Ty.cut_qname (fun leaf listed => (words leaf listed).1) ended (.stop [])
  obtain ⟨ts, tokenized, readings⟩ := Language.tokenizeFile_cut cut file
  refine ⟨ts, tokenized, fun r declaring log => ?_⟩
  have yields : Yields (typeExpr r m declaring false (ts.tokens ++ [])) ⟨s, log⟩ ty [] :=
    typeExpr_readings held (fun leaf listed => ⟨(words leaf listed).2, free leaf listed⟩)
      readings []
  rw [List.append_nil] at yields
  obtain ⟨⟨_, _, shorter⟩, run, rfl, rfl⟩ := yields
  exact ⟨shorter, run⟩

/-- A map to sets of a struct whose own name is a keyword, read in another model. -/
theorem typeExpr_qname_nested :
    let text := "struct list \x7b 1: i8 x \x7d struct T \x7b 1: map<byte,set<a.list>> f \x7d"
    let s := (((Call.parse "a" text .nowhere).run (.empty []) 0).exec ⟨.empty, []⟩).2.set
    let b : Model := { name := some "b" }
    ∃ ty ts, s.type? "map<byte,set<a.list>>" = some ty ∧
      (∀ leaf ∈ ty.leaves, s.type? (b.qname leaf.qname) = none) ∧
      tokenizeFile .idl "t" ty.qname = .ok ts ∧ ∃ shorter,
        (typeExpr ⟨"t", ts.eof⟩ b none false ts.tokens).exec ⟨s, []⟩ =
          (.ok ⟨ty, [], shorter⟩, ⟨s, []⟩) := by
  intro text s b
  have session : NamedLeads .empty s := .single (.parse .empty (.empty []) 0 _ _ _ [])
  have names : s.IdentifierNames := by
    unfold ModelSet.IdentifierNames
    decide +kernel
  have checked : (s.type? "map<byte,set<a.list>>").any fun ty =>
      ty.leaves.all fun leaf => (s.type? (b.qname leaf.qname)).isNone := by
    decide +kernel
  obtain ⟨ty, registered, absent⟩ := (Option.any_eq_true _ _).mp checked
  have free : ∀ leaf ∈ ty.leaves, s.type? (b.qname leaf.qname) = none := fun leaf listed =>
    Option.isNone_iff_eq_none.mp (List.all_eq_true.mp absent leaf listed)
  obtain ⟨ts, tokenized, read⟩ := typeExpr_qname session names registered b free "t"
  exact ⟨ty, ts, registered, free, tokenized, read _ none []⟩

end Session

end IdlGen
