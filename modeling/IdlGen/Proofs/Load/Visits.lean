import IdlGen.Proofs.Idl.Quiet
import IdlGen.Proofs.Load.Contract

/-!
# Which files a load reads

A load reads the files of models that were unknown when it started, each of them once, and makes
them known. `Visits` is the contract that says so, together with the order of the models: each is
finished after the models that it includes. Its bind rule is the whole argument for reading once:
what the first part has read is known to the second, which reads only what is unknown.
-/

namespace IdlGen

/-- The model whose file is read, if the event tells of reading one. -/
def LoadEvent.reads? : LoadEvent → Option String
  | reading path => (SourceRef.file path).modelName?
  | fetching address => (SourceRef.url address).modelName?
  | _ => none

/-- The models whose files are read, in the order in which the events tell so. -/
def readNames (events : List LoadEvent) : List String := events.filterMap LoadEvent.reads?

namespace LoadM

@[simp, grind =] theorem readNames_append (front back : List LoadEvent) :
    readNames (front ++ back) = readNames front ++ readNames back :=
  List.filterMap_append

theorem readNames_announces {source : SourceRef} {n : String} (named : source.modelName? = some n) :
    readNames (announces source) = [n] := by
  cases source with
  | nowhere => cases named
  | file path => exact List.filterMap_cons_some (f := LoadEvent.reads?) named
  | url address => exact List.filterMap_cons_some (f := LoadEvent.reads?) named

variable {α β : Type} {x : LoadM α} {f : α → LoadM β} {σ τ υ : LoadState}
variable {names more : List String} {n : String}

/-- From `σ` to `τ` the files of `names` are read. -/
structure Visit (σ : LoadState) (names : List String) (τ : LoadState) : Prop where
  reads : ∃ events, τ.log = σ.log ++ events ∧ readNames events = names
  nodup : names.Nodup
  unknown : ∀ n ∈ names, ¬ σ.set.Knows n
  models : σ.set.models <+: τ.set.models
  ordered : σ.set.Ordered → τ.set.Ordered

/-- A visit that came to its end: all that was read is known. -/
def Complete (σ τ : LoadState) : Prop :=
  ∃ names, Visit σ names τ ∧ ∀ n, σ.set.Knows n ∨ n ∈ names → τ.set.Knows n

/-- A visit that may have failed on the way. -/
def Begun (σ τ : LoadState) : Prop := ∃ names, Visit σ names τ

/-- Events that tell of no reading, between sets with the same models. -/
theorem Visit.nothing {events : List LoadEvent} (log : τ.log = σ.log ++ events)
    (silent : readNames events = []) (models : τ.set.models = σ.set.models) : Visit σ [] τ where
  reads := ⟨events, log, silent⟩
  nodup := .nil
  unknown := nofun
  models := models ▸ List.prefix_rfl
  ordered h := h.of_models models

theorem Visit.trans (h : Visit σ names τ) (known : ∀ n, σ.set.Knows n ∨ n ∈ names → τ.set.Knows n)
    (h' : Visit τ more υ) : Visit σ (names ++ more) υ where
  reads := by
    obtain ⟨events, log, read⟩ := h.reads
    obtain ⟨events', log', read'⟩ := h'.reads
    refine ⟨events ++ events', ?_, ?_⟩
    · rw [log', log, List.append_assoc]
    · rw [readNames_append, read, read']
  nodup := List.nodup_append.mpr ⟨h.nodup, h'.nodup, by
    rintro n first _ second rfl
    exact h'.unknown n second (known n (.inr first))⟩
  unknown n member before := by
    rcases List.mem_append.mp member with first | second
    · exact h.unknown n first before
    · exact h'.unknown n second (known n (.inl before))
  models := h.models.trans h'.models
  ordered start := h'.ordered (h.ordered start)

namespace Complete

theorem begun (h : Complete σ τ) : Begun σ τ := by
  obtain ⟨names, visit, _⟩ := h
  exact ⟨names, visit⟩

theorem of_still {events : List LoadEvent} (log : τ.log = σ.log ++ events)
    (silent : readNames events = []) (same : σ.set.SameModels τ.set) : Complete σ τ :=
  ⟨[], .nothing log silent same.models, fun _ h => same.knows_iff.mpr (h.resolve_right nofun)⟩

@[refl, simp]
theorem refl (σ : LoadState) : Complete σ σ := of_still (List.append_nil _).symm rfl (.refl _)

theorem trans (h : Complete σ τ) (h' : Complete τ υ) : Complete σ υ := by
  obtain ⟨names, visit, known⟩ := h
  obtain ⟨more, visit', known'⟩ := h'
  refine ⟨names ++ more, visit.trans known visit', fun n h => known' n ?_⟩
  rcases h with before | member
  · exact .inl (known n (.inl before))
  · exact (List.mem_append.mp member).imp_left fun first => known n (.inr first)

theorem trans_begun (h : Complete σ τ) (h' : Begun τ υ) : Begun σ υ := by
  obtain ⟨names, visit, known⟩ := h
  obtain ⟨more, visit'⟩ := h'
  exact ⟨names ++ more, visit.trans known visit'⟩

theorem isLoaded (h : Complete σ τ) (loaded : σ.set.isLoaded n = true) :
    τ.set.isLoaded n = true := by
  obtain ⟨_, visit, _⟩ := h
  exact ModelSet.isLoaded_of_prefix visit.models loaded

end Complete

/-- While a name is reserved, no file of that name is read. -/
theorem Visit.nodup_cons {log : List LoadEvent} (h : Visit ⟨σ.set.reserve n, log⟩ names τ) :
    (n :: names).Nodup :=
  List.nodup_cons.mpr ⟨fun member => h.unknown n member (by simp), h.nodup⟩

/-- The file that is opened for an unknown model is read before those that it includes. -/
theorem Visit.opened {source : SourceRef} (named : source.modelName? = some n)
    (unknown : ¬ σ.set.Knows n)
    (h : Visit ⟨σ.set.reserve n, σ.log ++ announces source⟩ names τ) :
    Visit σ (n :: names) τ where
  reads := by
    obtain ⟨events, log, read⟩ := h.reads
    refine ⟨announces source ++ events, ?_, ?_⟩
    · rw [log, List.append_assoc]
    · rw [readNames_append, readNames_announces named, read]
      rfl
  nodup := h.nodup_cons
  unknown k member known := by
    rcases List.mem_cons.mp member with rfl | later
    · exact unknown known
    · exact h.unknown k later (by simp [known])
  models := h.models
  ordered start := h.ordered (start.of_models rfl)

theorem Complete.opened {source : SourceRef} (named : source.modelName? = some n)
    (unknown : ¬ σ.set.Knows n)
    (h : Complete ⟨σ.set.reserve n, σ.log ++ announces source⟩ τ) : Complete σ τ := by
  obtain ⟨names, visit, known⟩ := h
  refine ⟨n :: names, visit.opened named unknown, fun k h => known k ?_⟩
  rcases h with before | member
  · exact .inl (by simp [before])
  · exact (List.mem_cons.mp member).imp_left fun own => by simp [own]

/-- A model is finished after the models that it includes. -/
theorem Complete.finish {m : Model} {event : LoadEvent} (h : Complete σ τ)
    (named : m.name = some n) (new : τ.set.isLoaded n ≠ true)
    (included : ∀ k ∈ m.includes, τ.set.isLoaded k = true) (silent : event.reads? = none) :
    Complete σ ⟨τ.set.finish m, τ.log ++ [event]⟩ := by
  have models : (τ.set.finish m).models = τ.set.models ++ [m] := by
    rw [ModelSet.finish_named named]
  have visit : Visit τ [] ⟨τ.set.finish m, τ.log ++ [event]⟩ :=
    { reads := ⟨[event], rfl, List.filterMap_cons_none silent⟩
      nodup := .nil
      unknown := nofun
      models := models ▸ List.prefix_append _ _
      ordered := fun ordered => ordered.finish named new included }
  exact h.trans ⟨[], visit, fun _ h => (h.resolve_right nofun).finish named⟩

/-- The computation reads files once, and only those of models that are unknown. -/
def Visits (x : LoadM α) (Q : α → ModelSet → Prop) (σ : LoadState) : Prop :=
  x.WP (fun a τ => Complete σ τ ∧ Q a τ.set) (fun _ τ => Begun σ τ) σ

namespace Visits

variable {P : α → ModelSet → Prop} {R : β → ModelSet → Prop}

theorem pure {a : α} (post : P a σ.set) : Visits (Pure.pure a : LoadM α) P σ := ⟨.refl σ, post⟩

theorem after (before : Complete σ τ) (next : Visits x P τ) :
    x.WP (fun a υ => Complete σ υ ∧ P a υ.set) (fun _ υ => Begun σ υ) τ :=
  WP.mono next (fun _ _ ⟨further, post⟩ => ⟨before.trans further, post⟩)
    fun _ _ => before.trans_begun

theorem lift_bind {y : Except SourceError α} (next : ∀ a, y = .ok a → Visits (f a) R σ) :
    Visits (liftM y >>= f) R σ :=
  WP.bind_iff.mpr (WP.lift_iff.mpr ⟨next, fun _ _ => (Complete.refl σ).begun⟩)

theorem begun (h : Visits x P σ) : Begun σ (x.exec σ).2 :=
  (WP.mono h (fun _ _ ⟨complete, _⟩ => complete.begun) fun _ _ h => h).both (P := Begun σ)

theorem of_quiet {P : α → Prop} (quiet : Quiet x P σ) :
    Visits x (fun a s => σ.set.SameModels s ∧ P a) σ := by
  have complete {τ : LoadState} (still : Still σ τ) : Complete σ τ :=
    .of_still (still.log.trans (List.append_nil _).symm) rfl still.same
  exact WP.mono quiet (fun _ _ ⟨still, post⟩ => ⟨complete still, still.same, post⟩)
    fun _ _ still => (complete still).begun

end Visits

end LoadM

open LoadM

namespace Idl

/-- A loader that reads files once if it is asked for an unknown model, and loads that model. -/
def Loader.Once (load : Loader) : Prop :=
  ∀ source n σ, σ.set.WellFormed → source.modelName? = some n → ¬ σ.set.Knows n →
    Visits (load source) (fun _ s => s.isLoaded n = true) σ

variable {r : Reader} {origin : SourceRef} {load : Loader} {m : Model} {toks : List Token}
variable {σ : LoadState}

/-- All models that a model includes so far are loaded. -/
def Included (m : Model) (s : ModelSet) : Prop := ∀ n ∈ m.includes, s.isLoaded n = true

@[simp]
theorem included_nil {name? : Option String} {s : ModelSet} : Included { name := name? } s :=
  fun _ member => absurd member List.not_mem_nil

theorem included_addInclude {n : String} {s : ModelSet} (included : Included m s)
    (loaded : s.isLoaded n = true) : Included (m.addInclude n) s := by
  intro k member
  rcases Model.mem_addInclude.mp member with old | rfl
  · exact included k old
  · exact loaded

theorem includeDecl_visits (once : load.Once) (wf : σ.set.WellFormed)
    (included : Included m σ.set) :
    Visits (includeDecl r origin load m toks) (fun p s => Included p.value s) σ := by
  unfold Visits WP
  obtain ⟨out, same, result⟩ | ⟨source, n, p, named, unknown, value, asked⟩ :=
    includeDecl_cases r origin m toks σ
  · rw [same]
    cases out with
    | error e => exact (Complete.refl σ).begun
    | ok p =>
        obtain ⟨n, loaded, value⟩ := result p rfl
        refine ⟨.refl σ, ?_⟩
        change Included p.value σ.set
        rw [value]
        exact included_addInclude included loaded
  · rw [asked]
    have told : Complete σ { σ with log := σ.log ++ [.includes r.file source] } :=
      .of_still rfl rfl (.refl _)
    refine WP.bind_iff.mpr (WP.mono (once source n _ wf named unknown) ?_ ?_)
    · rintro _ τ ⟨complete, loaded⟩
      have complete := told.trans complete
      refine ⟨complete, ?_⟩
      change Included p.value τ.set
      rw [value]
      exact included_addInclude (fun k member => complete.isLoaded (included k member)) loaded
    · exact fun _ _ => told.trans_begun

theorem declaration_visits (once : load.Once) (wf : σ.set.WellFormed)
    (included : Included m σ.set) :
    Visits (declaration r origin load m toks) (fun p s => Included p.value s) σ := by
  obtain isInclude | ⟨x, same, quiet⟩ := declaration_cases r origin m toks
  · rw [isInclude]
    exact includeDecl_visits once wf included
  · rw [same]
    refine WP.mono (Visits.of_quiet (quiet σ)) (fun p τ ⟨complete, sameModels, includes⟩ => ?_)
      fun _ _ h => h
    refine ⟨complete, fun n member => ?_⟩
    rw [sameModels.isLoaded]
    exact included n (includes ▸ member)

theorem document_visits (once : load.Once) (steady : load.Steady) (building : m.Building σ.set)
    (included : Included m σ.set) :
    Visits (document r origin load m toks) Included σ := by
  induction h : toks.length using Nat.strongRecOn generalizing toks m σ with
  | ind length ih =>
      unfold document
      split
      · exact .pure included
      · refine WP.bind_iff.mpr (WP.mono
          ((declaration_visits once building.wf included).and
            (declaration_declares steady building)) ?_ fun _ _ => And.left)
        rintro ⟨m', afterDeclaration, _⟩ τ ⟨⟨complete, included'⟩, made, building', _⟩
        dsimp only
        obtain ⟨next, _⟩ := skipSeparator afterDeclaration
        exact Visits.after complete (ih next.length (by omega) building' included' rfl)

end Idl

namespace Load

open Idl

variable {load : Loader} {files : FileTree} {m : Model} {σ τ : LoadState}
variable {name lexFile file text : String} {origin source : SourceRef}

theorem parseInto_visits (once : load.Once) (steady : load.Steady) (building : m.Building σ.set)
    (included : Included m σ.set) :
    Visits (parseInto load m lexFile file text origin) Included σ :=
  .lift_bind fun _ _ => document_visits once steady building included

/-- What loading the model `name` does from a state in which the name is reserved for it. -/
def Opens (name : String) (x : LoadM Model) (start σ : LoadState) : Prop :=
  x.WP (fun _ τ => Complete { start with set := start.set.reserve name } τ ∧
      τ.set.isLoaded name = true)
    (fun _ τ => Begun { start with set := start.set.reserve name } τ) σ

theorem Opens.begun {x : LoadM Model} {start : LoadState} (h : Opens name x start σ) :
    Begun { start with set := start.set.reserve name } (x.exec σ).2 :=
  (WP.mono h (fun _ _ ⟨complete, _⟩ => complete.begun) fun _ _ h => h).both
    (P := Begun { start with set := start.set.reserve name })

theorem parseWith_opens (once : load.Once) (steady : load.Steady) (wf : σ.set.WellFormed) :
    Opens name (parseWith load name text origin) σ σ := by
  unfold Opens parseWith
  simp only [WP.bind_iff, WP.getSet_iff]
  split
  · exact ⟨[], .nothing (List.append_nil _).symm rfl rfl⟩
  · rename_i m s created
    obtain ⟨unknown, rfl, rfl⟩ := ModelSet.create_eq_ok_iff.mp created
    have building : Model.Building { name := some name } (σ.set.reserve name) :=
      building_reserve wf unknown
    simp only [WP.bind_iff, WP.setSet_iff, WP.tryCatch_iff, WP.updateSet_iff, WP.tell_iff,
      WP.pure_iff, WP.throw_iff]
    let opened : LoadState := { σ with set := σ.set.reserve name }
    refine WP.mono ((parseInto_visits (σ := opened) once steady building included_nil).and
      (parseInto_declares (σ := opened) steady building)) ?_ ?_
    · rintro m τ ⟨⟨complete, included⟩, _, building', named⟩
      have new : τ.set.isLoaded name = false :=
        building'.wf.unloaded (building'.pending name named)
      refine ⟨complete.finish named (by simp [new]) included rfl, ?_⟩
      exact (ModelSet.isLoaded_finish_iff named).mpr (.inr rfl)
    · rintro e τ ⟨⟨names, visit⟩, _⟩
      exact ⟨names, { visit with ordered := fun start => (visit.ordered start).of_models rfl }⟩

theorem loadWith_opens (once : load.Once) (steady : load.Steady) (wf : σ.set.WellFormed)
    (named : source.modelName? = some name) :
    Opens name (loadWith load files source) { σ with log := σ.log ++ announces source } σ := by
  obtain ⟨out, read, _⟩ := exec_readSource files source σ
  unfold Opens loadWith WP
  simp only [named, exec_bind, read]
  cases out with
  | error e => exact ⟨[], .nothing (List.append_nil _).symm rfl rfl⟩
  | ok text =>
      exact parseWith_opens (σ := { σ with log := σ.log ++ announces source }) once steady wf

theorem parseAnonymousWith_visits (once : load.Once) (steady : load.Steady)
    (wf : σ.set.WellFormed) : Visits (parseAnonymousWith load text origin) (fun _ _ => True) σ := by
  have building : Model.Building { name := none } σ.set := building_nil wf nofun
  refine WP.bind_iff.mpr (WP.mono ((parseInto_visits once steady building included_nil).and
    (parseInto_declares steady building)) ?_ fun _ _ => And.left)
  rintro m τ ⟨⟨complete, _⟩, _, _, name⟩
  simp only [WP.bind_iff, WP.updateSet_iff, WP.pure_iff, ModelSet.finish_anonymous name]
  exact ⟨complete, trivial⟩

/-- Every file is read once, however deep includes may nest. -/
theorem loadInclude_once (depth : Nat) : (loadInclude files depth).Once := by
  induction depth with
  | zero =>
      intro source n σ wf named unknown
      have begun : Begun σ { σ with log := σ.log ++ announces source } :=
        ⟨[n], .opened named unknown (.nothing (List.append_nil _).symm rfl rfl)⟩
      obtain ⟨out, read, _⟩ := exec_readSource files source σ
      unfold Visits loadInclude WP
      rw [exec_bind, read]
      cases out with
      | error e => exact begun
      | ok text => exact begun
  | succ depth ih =>
      intro source n σ wf named unknown
      refine WP.bind_iff.mpr (WP.mono (loadWith_opens ih (loadInclude_steady depth) wf named) ?_ ?_)
      · rintro _ τ ⟨complete, loaded⟩
        exact ⟨complete.opened named unknown, loaded⟩
      · rintro _ τ ⟨names, visit⟩
        exact ⟨n :: names, visit.opened named unknown⟩

end Load

end IdlGen
