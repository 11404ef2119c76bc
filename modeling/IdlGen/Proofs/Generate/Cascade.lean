import IdlGen.CommandLine
import IdlGen.Generate.Plan
import IdlGen.Proofs.Idl.Wp
import IdlGen.Proofs.Spec.Keyed

/-!
# The cascade

The options, parameters and helpers of an entry are read layer by layer, from the entry itself up to
the spec's global section. Everything else of the entry is its own.
-/

namespace IdlGen

namespace RunM

variable {α β : Type} {x : RunM α} {f : α → RunM β} {w w' : World}

/-- What runs after a computation that succeeds. -/
theorem bind_of_ok {a : α} (run : x w = (.ok a, w')) : (x >>= f) w = f a w' := by
  simp only [bind, ExceptT.bind, ExceptT.mk, StateT.bind, run, ExceptT.bindCont]

theorem bind_of_error {e : GenError} (run : x w = (.error e, w')) :
    (x >>= f) w = (.error e, w') := by
  simp only [bind, ExceptT.bind, ExceptT.mk, StateT.bind, run, ExceptT.bindCont]
  rfl

/-- What succeeds has succeeded in both of its steps. -/
theorem exists_of_bind {b : β} (run : (x >>= f) w = (.ok b, w')) :
    ∃ a w₁, x w = (.ok a, w₁) ∧ f a w₁ = (.ok b, w') := by
  rcases first : x w with ⟨out, w₁⟩
  cases out with
  | ok a => exact ⟨a, w₁, rfl, (bind_of_ok first).symm.trans run⟩
  | error e => cases (bind_of_error first).symm.trans run

/-- Telling a list of events appends it to the log. -/
@[simp] theorem forM_tell (events : List Event) (w : World) :
    events.forM tell w = (.ok (), { w with log := w.log ++ events }) := by
  induction events generalizing w with
  | nil =>
      rw [List.append_nil]
      rfl
  | cons e events ih =>
      change events.forM tell { w with log := w.log ++ [e] } = _
      rw [ih, List.append_assoc]
      rfl

/-- What must be loaded is loaded without an error. -/
theorem exec_of_mustLoad {action : FileTree → LoadM α} {a : α}
    (run : mustLoad action w = (.ok a, w')) : ∃ τ, (action w.files).exec {} = (.ok a, τ) := by
  obtain ⟨out, w₁, loaded, run⟩ := exists_of_bind run
  cases out with
  | error e => cases run
  | ok b =>
      cases run
      exact ⟨_, Prod.ext (Except.ok.inj (congrArg Prod.fst loaded)) rfl⟩

end RunM

namespace Plan

/-- The sections of a plan repeat no key. -/
structure Keyed (p : Plan) : Prop where
  options : p.options.Keyed
  spec : p.spec.Keyed

variable {p : Plan}

/-- The command line gives each option at most once. -/
@[simp] theorem options_keyed (s : CommandLine.Settings) : s.options.Keyed := by
  have singles (flags : List CommandLine.Flag) :
      ((flags.filterMap fun flag => (s.values.lookup flag).map fun value =>
        (flag.option, Tree.str value)).map Prod.fst).Sublist (flags.map (·.option)) := by
    induction flags with
    | nil => exact .slnil
    | cons flag flags ih =>
        cases given : s.values.lookup flag with
        | none => simpa [given] using ih.cons _
        | some value => simpa [given] using ih
  apply Tree.isKeyed_object_iff.2
  constructor
  · have distinct : ([CommandLine.Flag.model, .genspec, .outdir, .indir, .charset].map (·.option) ++
        [CommandLine.Flag.target.option]).Nodup := by decide
    refine distinct.sublist ?_
    rw [CommandLine.Settings.options, List.map_append]
    refine (singles _).append ?_
    split
    · exact List.nil_sublist _
    · exact List.Sublist.refl _
  · intro m member
    obtain member | member := List.mem_append.1 member
    · obtain ⟨flag, _, given⟩ := List.mem_filterMap.1 member
      obtain ⟨value, _, rfl⟩ := Option.map_eq_some_iff.1 given
      rfl
    · split at member
      · exact absurd member List.not_mem_nil
      · obtain rfl := List.mem_singleton.1 member
        apply Tree.isKeyed_list_iff.2
        intro x listed
        obtain ⟨name, _, rfl⟩ := List.mem_map.1 listed
        rfl

theorem loadSpec_keyed {files : FileTree} {source : SourceRef} {s : Section} {σ τ : LoadState}
    (run : (loadSpec files source).exec σ = (.ok s, τ)) : s.Keyed := by
  have parsed : (loadSpec files source).WP (fun s _ => s.Keyed) (fun _ _ => True) σ := by
    apply LoadM.WP.bind_iff.2
    apply LoadM.readSource_wp
    · intro text τ _
      apply LoadM.WP.bind_iff.2
      exact LoadM.WP.lift_iff.2 ⟨fun s read => Spec.parse_keyed read, fun _ _ => trivial⟩
    · intro e τ _
      trivial
  exact parsed.ok run

theorem chooseSpec_keyed {options chosen : Section} {dir name : String} {w w' : World}
    (keyed : options.Keyed) (run : chooseSpec options dir w = (.ok (name, chosen), w')) :
    chosen.Keyed := by
  unfold chooseSpec at run
  cases given : options.text? "genspec_file" with
  | some name =>
      rw [given] at run
      cases run
      exact keyed
  | none =>
      rw [given] at run
      obtain ⟨found, w₁, _, run⟩ := RunM.exists_of_bind run
      cases run
      exact keyed.insert "genspec_file" rfl

/-- A plan that is loaded with the options of a command line repeats no key. -/
theorem keyed_of_load {settings : CommandLine.Settings} {dir : String} {w w' : World}
    (run : load settings.options dir w = (.ok p, w')) : p.Keyed := by
  unfold load at run
  obtain ⟨⟨name, chosen⟩, w₁, choose, run⟩ := RunM.exists_of_bind run
  obtain ⟨spec, w₂, loaded, run⟩ := RunM.exists_of_bind run
  obtain ⟨_, w₃, _, run⟩ := RunM.exists_of_bind run
  cases run
  obtain ⟨τ, parsed⟩ := RunM.exec_of_mustLoad loaded
  exact ⟨chooseSpec_keyed (options_keyed settings) choose, loadSpec_keyed parsed⟩

/-- A configuration is that of an entry with all that it inherits: for each section the layers are
listed from the one that wins to the one that gives way to all others. -/
structure Cascades (p : Plan) (target config merged : Section) : Prop where
  options : ∃ s : Section, merged.get? "options" = some (.object s) ∧
    s.Layers [config.sub "options", target.sub "options", p.options,
      (p.spec.sub "global").sub "options"]
  params : ∃ s : Section, merged.get? "params" = some (.object s) ∧
    s.Layers [config.sub "params", target.sub "params", (p.spec.sub "global").sub "params"]
  helpers : ∃ s : Section, merged.get? "helper_classes" = some (.object s) ∧
    s.Layers [config.sub "helper_classes", target.sub "helper_classes"]
  others : ∀ k, k ≠ "options" → k ≠ "params" → k ≠ "helper_classes" →
    merged.get? k = config.get? k

theorem globalOptions_layers (keyed : p.Keyed) :
    p.globalOptions.Layers [p.options, (p.spec.sub "global").sub "options"] :=
  (Section.layers_self _).overlay keyed.options.nodup

/-- The configuration of an entry, as it is built for its target. -/
theorem cascades_entry (keyed : p.Keyed) {target config : Section} (targetKeyed : target.Keyed)
    (configKeyed : config.Keyed) (name : String) (index : Nat) :
    p.Cascades target config (p.entry name target index config).config := by
  have nodup (k : String) : ((target.sub k).map Prod.fst).Nodup ∧
      ((config.sub k).map Prod.fst).Nodup :=
    ⟨(targetKeyed.sub k).nodup, (configKeyed.sub k).nodup⟩
  constructor
  · refine ⟨_, ?_, ((globalOptions_layers keyed).overlay (nodup _).1).overlay (nodup _).2⟩
    simp [entry]
  · refine ⟨_, ?_, ((Section.layers_self _).overlay (nodup _).1).overlay (nodup _).2⟩
    simp [entry, globalParams]
  · refine ⟨_, ?_, (Section.layers_self _).overlay (nodup _).2⟩
    simp [entry]
  · intro k notOptions notParams notHelpers
    simp [entry, notOptions, notParams, notHelpers]

/-- An entry comes from the list of a target in the spec. -/
theorem exists_of_mem_entries {e : Entry} (member : e ∈ p.entries) :
    ∃ target config : Section, (e.target, .object target) ∈ p.spec.sub "targets" ∧
      (Section.items target "generators")[e.index]? = some (.object config) ∧
      e = p.entry e.target target e.index config := by
  obtain ⟨step, listed, isEntry⟩ := List.mem_filterMap.1 member
  obtain ⟨⟨name, tree⟩, selected, listed⟩ := List.mem_flatMap.1 listed
  have named := (List.mem_filter.1 selected).1
  cases step with
  | inl event => cases isEntry
  | inr entry =>
      cases isEntry
      cases tree with
      | object target =>
          obtain ⟨⟨item, index⟩, place, made⟩ := List.mem_map.1 listed
          have found := List.mem_zipIdx_iff_getElem?.1 place
          cases item with
          | object config =>
              cases made
              exact ⟨target, config, named, found, rfl⟩
          | null | bool | int | double | str | list => cases made
      | null | bool | int | double | str | list =>
          cases List.mem_singleton.1 listed

/-- Resolving tells what is passed over and does not fail. -/
@[simp] theorem resolve_eq (p : Plan) (w : World) :
    p.resolve w = (.ok p.entries, { w with log := w.log ++ p.warnings }) :=
  RunM.bind_of_ok (RunM.forM_tell p.warnings w)

/-- Every entry of a plan is one of a target in its spec, with all that it inherits. -/
theorem resolve_cascades (keyed : p.Keyed) (w : World) :
    ∃ entries, (p.resolve w).1 = .ok entries ∧ ∀ e ∈ entries, ∃ target config,
      (p.spec.sub "targets").get? e.target = some (.object target) ∧
      (Section.items target "generators")[e.index]? = some (.object config) ∧
      p.Cascades target config e.config := by
  refine ⟨p.entries, congrArg Prod.fst (p.resolve_eq w), ?_⟩
  intro e member
  obtain ⟨target, config, listed, item, built⟩ := exists_of_mem_entries member
  have targets := keyed.spec.sub "targets"
  have found := Section.get?_of_mem targets.nodup listed
  have targetKeyed : target.Keyed := targets.get? found
  have configKeyed : config.Keyed := targetKeyed.items (List.mem_of_getElem? item)
  refine ⟨target, config, found, item, ?_⟩
  rw [built]
  exact cascades_entry keyed targetKeyed configKeyed e.target e.index

/-- A plan with something in every layer. The only generator stands where a list could stand, and
its parameters are no section. -/
def layered : Plan where
  options := [("a", .str "process"), ("b", .str "process"), ("c", .null)]
  spec :=
    [("global", .object
      [("options", .object [("c", .str "global"), ("d", .str "global")]),
       ("params", .object [("p", .str "global")])]),
     ("targets", .object
      [("t", .object
        [("options", .object [("b", .str "target")]),
         ("generators", .object
          [("kind", .str "struct"), ("params", .null), ("options", .object [("a", .null)])])])])]

/-- A value counts even if it is null, and every layer shows where the ones above it are silent. -/
theorem layered_cascades :
    layered.Keyed ∧ ∃ e, (layered.resolve ⟨.empty [], []⟩).1 = .ok [e] ∧
      (∃ s : Section, e.config.get? "options" = some (.object s) ∧ s.get? "a" = some .null ∧
        s.get? "b" = some (.str "target") ∧ s.get? "c" = some .null ∧
        s.get? "d" = some (.str "global") ∧ s.get? "e" = none) ∧
      e.config.get? "kind" = some (.str "struct") := by
  have keyed : layered.Keyed := ⟨by decide, by decide⟩
  obtain ⟨entries, resolved, cascades⟩ := resolve_cascades keyed ⟨.empty [], []⟩
  rw [resolve_eq] at resolved
  cases resolved
  obtain ⟨e, listed⟩ : ∃ e, layered.entries = [e] := ⟨_, rfl⟩
  obtain ⟨target, config, bound, item, found⟩ := cascades e (listed ▸ List.mem_singleton_self e)
  cases listed
  cases bound
  cases item
  obtain ⟨s, options, layers⟩ := found.options
  refine ⟨keyed, _, congrArg Prod.fst (resolve_eq _ _), ⟨s, options, ?_⟩, ?_⟩
  · simp only [layers _]
    exact ⟨rfl, rfl, rfl, rfl, rfl⟩
  · exact found.others "kind" (by decide) (by decide) (by decide)

end Plan

end IdlGen
