import IdlGen.Generate.Run
import IdlGen.Proofs.Generate.Cascade

/-!
# Accounting for a run

A run goes through the entries of its plan, and each of them comes to an outcome: there is no such
backend, or the backend returns, with an error or without one. A trail is the list of the entries
that were carried out, with their outcomes, between two worlds. It says which backend is invoked
with what and in which order, since a backend may do anything at all to the world.

The report of a run is the tally of its trail. An entry is the same whatever was carried out before
it, because the entries are there before the first backend is invoked.
-/

namespace IdlGen

/-- The world with more in its log. -/
def World.noting (w : World) (events : List Event) : World := { w with log := w.log ++ events }

/-- The name under which the backend of an entry is registered. -/
def Entry.backendName (e : Entry) : String :=
  (e.config.text? "generator_class").getD Backends.defaultName

namespace Run

/-- What became of an entry. -/
inductive Outcome where
  /-- No backend is registered under the name that the entry asks for. -/
  | uncreated
  | returned (result : Except GenError Unit)

namespace Outcome

/-- The error of a spec or of a definition, which ends the run. -/
def fatal? : Outcome → Option GenError
  | returned (.error (.spec cause)) => some (.spec cause)
  | returned (.error (.source cause)) => some (.source cause)
  | _ => none

/-- How the entry is counted, if the run goes on. -/
def ending? : Outcome → Option End
  | returned (.ok ()) => some .succeeded
  | returned (.error (.config _ _)) => some .skipped
  | returned (.error (.spec _)) => none
  | returned (.error (.source _)) => none
  | returned (.error _) => some .failed
  | uncreated => some .failed

end Outcome

/-- What the log tells about an entry after its backend has returned. -/
def remarks (id : String) : Except GenError Unit → List Event
  | .ok () => []
  | .error (.spec cause) => [.terminated id (.spec cause)]
  | .error (.source cause) => [.terminated id (.source cause)]
  | .error (.config i cause) => [.skipped (.config i cause)]
  | .error e => [.failed id e]

/-- An entry that was carried out, and what became of it. -/
structure Visit where
  entry : Entry
  outcome : Outcome

/-- The visit leads from one world to another: its backend is invoked once, with its entry. -/
inductive Carried (backends : Backends) : Visit → World → World → Prop
  | uncreated {e : Entry} {w : World} (missing : backends.find? e.backendName = none) :
      Carried backends ⟨e, .uncreated⟩ w (w.noting [.unknownBackend
        (.unknownBackend ((e.config.text? "generator_class").getD "") e.id backends.names)])
  | returned {e : Entry} {backend : Backend} {result : Except GenError Unit} {w w' : World}
      (found : backends.find? e.backendName = some backend)
      (invoked : backend.generate e (w.noting [.chosen e.id backend.name]) = (result, w')) :
      Carried backends ⟨e, .returned result⟩ w (w'.noting (remarks e.id result))

/-- The visits lead from one world to another, one after the other. -/
inductive Trail (backends : Backends) : World → List Visit → World → Prop
  | nil (w : World) : Trail backends w [] w
  | cons {v : Visit} {visits : List Visit} {w w₁ w₂ : World} (first : Carried backends v w w₁)
      (rest : Trail backends w₁ visits w₂) : Trail backends w (v :: visits) w₂

/-- How many visits came to an end. -/
def endings (ending : End) (visits : List Visit) : Nat :=
  visits.countP (·.outcome.ending? = some ending)

/-- The report on visits. -/
def tally (visits : List Visit) : Report where
  succeeded := endings .succeeded visits
  skipped := endings .skipped visits
  failed := endings .failed visits

/-- Two reports in one. -/
def sum (r r' : Report) : Report :=
  ⟨r.succeeded + r'.succeeded, r.skipped + r'.skipped, r.failed + r'.failed⟩

variable {backends : Backends} {e : Entry} {w w' : World} {visits : List Visit} {v : Visit}

/-- A backend that has returned ends the run with a fatal error, or else is counted. -/
theorem settle_eq (id : String) (result : Except GenError Unit) (w : World) :
    (∃ ending, (Outcome.returned result).ending? = some ending ∧
        (Outcome.returned result).fatal? = none ∧
        settle id result w = (.ok ending, w.noting (remarks id result))) ∨
      ∃ e, (Outcome.returned result).fatal? = some e ∧
        settle id result w = (.error e, w.noting (remarks id result)) := by
  cases result with
  | ok value =>
      refine .inl ⟨.succeeded, rfl, rfl, ?_⟩
      show (Except.ok End.succeeded, w) = (.ok .succeeded, { w with log := w.log ++ [] })
      rw [List.append_nil]
  | error e =>
      cases e with
      | spec cause => exact .inr ⟨_, rfl, rfl⟩
      | source cause => exact .inr ⟨_, rfl, rfl⟩
      | config i cause => exact .inl ⟨.skipped, rfl, rfl, rfl⟩
      | unknownBackend | template | file | unreadableTemplate | failedOutputs =>
          exact .inl ⟨.failed, rfl, rfl, rfl⟩

/-- Carrying out an entry is one visit. -/
theorem visit_carried (backends : Backends) (e : Entry) (w : World) :
    ∃ outcome w', Carried backends ⟨e, outcome⟩ w w' ∧
      ((∃ ending, outcome.ending? = some ending ∧ outcome.fatal? = none ∧
          visit backends e w = (.ok ending, w')) ∨
        ∃ err, outcome.fatal? = some err ∧ visit backends e w = (.error err, w')) := by
  cases found : backends.find? e.backendName with
  | none =>
      refine ⟨.uncreated, _, .uncreated found, .inl ⟨.failed, rfl, rfl, ?_⟩⟩
      unfold Entry.backendName at found
      simp only [visit, found]
      rfl
  | some backend =>
      obtain ⟨result, w', invoked⟩ :
          ∃ result w', backend.generate e (w.noting [.chosen e.id backend.name]) = (result, w') :=
        ⟨_, _, rfl⟩
      have settled : visit backends e w = settle e.id result w' := by
        have told : RunM.tell (.chosen e.id backend.name) w =
            (.ok (), w.noting [.chosen e.id backend.name]) := rfl
        have outcome : (backend.generate e).outcome (w.noting [.chosen e.id backend.name]) =
            (.ok result, w') := by
          unfold RunM.outcome
          rw [invoked]
        unfold Entry.backendName at found
        simp only [visit, found]
        rw [RunM.bind_of_ok told, RunM.bind_of_ok outcome]
      refine ⟨.returned result, _, .returned found invoked, ?_⟩
      rw [settled]
      exact settle_eq e.id result w'

/-- Counting a visit adds it to the tally of those that follow. -/
theorem sum_count_tally {ending : End} (counted : v.outcome.ending? = some ending) (r : Report) :
    sum (count r ending) (tally visits) = sum r (tally (v :: visits)) := by
  cases ending <;> simp [sum, count, tally, endings, counted, Nat.add_assoc, Nat.add_comm]

theorem ending?_ne_none (goesOn : v.outcome.fatal? = none) : v.outcome.ending? ≠ none := by
  obtain ⟨e, outcome⟩ := v
  cases outcome with
  | uncreated => exact Option.some_ne_none _
  | returned result =>
      cases result with
      | ok value => exact Option.some_ne_none _
      | error e => cases e <;> simp_all [Outcome.fatal?, Outcome.ending?]

/-- Every visit is counted once, if none is fatal. -/
theorem total_tally (goesOn : ∀ v ∈ visits, v.outcome.fatal? = none) :
    (tally visits).succeeded + (tally visits).skipped + (tally visits).failed = visits.length := by
  induction visits with
  | nil => rfl
  | cons v visits ih =>
      have rest := ih fun u member => goesOn u (List.mem_cons_of_mem v member)
      have goesOn := goesOn v List.mem_cons_self
      obtain ⟨ending, counted⟩ := Option.ne_none_iff_exists'.mp (ending?_ne_none goesOn)
      cases ending <;> simp [tally, endings, counted] at rest ⊢ <;> omega

/-- How a run through entries ends: after all of them, or at the first fatal error. -/
inductive Concludes (entries : List Entry) : List Visit → Except GenError Report → Prop
  | finished {visits : List Visit} (all : visits.map (·.entry) = entries)
      (goesOn : ∀ v ∈ visits, v.outcome.fatal? = none) :
      Concludes entries visits (.ok (tally visits))
  | terminated (before : List Visit) (last : Visit) {e : GenError}
      (front : (before ++ [last]).map (·.entry) <+: entries)
      (goesOn : ∀ v ∈ before, v.outcome.fatal? = none) (fatal : last.outcome.fatal? = some e) :
      Concludes entries (before ++ [last]) (.error e)

/-- Carrying out entries is a trail that ends after all of them or with the first fatal error. The
report grows by the tally. -/
theorem visitAll_trail (backends : Backends) (entries : List Entry) (r : Report) (w : World) :
    ∃ visits w' result, Trail backends w visits w' ∧ Concludes entries visits result ∧
      visitAll backends entries r w = (result.map (sum r), w') := by
  -- The report so far has to vary: the loop accumulates it, while a tally starts from nothing.
  induction entries generalizing r w with
  | nil =>
      exact ⟨[], w, _, .nil w, .finished rfl (by simp), rfl⟩
  | cons e entries ih =>
      obtain ⟨outcome, w₁, carried, counted | fatal⟩ := visit_carried backends e w
      · obtain ⟨ending, counted, goesOn, visited⟩ := counted
        obtain ⟨visits, w', result, trail, concludes, rest⟩ := ih (count r ending) w₁
        have all : visitAll backends (e :: entries) r w =
            (result.map (sum (count r ending)), w') :=
          (RunM.bind_of_ok visited).trans rest
        cases concludes with
        | finished all' goesOn' =>
            refine ⟨⟨e, outcome⟩ :: visits, w', _, .cons carried trail, .finished ?_ ?_, ?_⟩
            · rw [List.map_cons, all']
            · exact List.forall_mem_cons.mpr ⟨goesOn, goesOn'⟩
            · rw [all]
              show (Except.ok (sum (count r ending) (tally visits)), w') = _
              rw [sum_count_tally (v := ⟨e, outcome⟩) counted]
              rfl
        | terminated before last front goesOn' fatal =>
            refine ⟨⟨e, outcome⟩ :: (before ++ [last]), w', _, .cons carried trail,
              .terminated (⟨e, outcome⟩ :: before) last ?_ ?_ fatal, all⟩
            · exact (List.prefix_cons_inj e).mpr front
            · exact List.forall_mem_cons.mpr ⟨goesOn, goesOn'⟩
      · obtain ⟨err, fatal, visited⟩ := fatal
        refine ⟨[⟨e, outcome⟩], w₁, _, .cons carried (.nil w₁),
          .terminated [] ⟨e, outcome⟩ ⟨entries, rfl⟩ (by simp) fatal, ?_⟩
        exact RunM.bind_of_error visited

end Run

namespace Plan

open Run

/-- The entries of a plan depend neither on the world nor on the backends. Every run carries out the
first of them in order, each at most once. It carries out all of them and reports the tally, or it
ends with the first fatal error and invokes no backend after that. -/
theorem run_accounts (p : Plan) :
    ∃ entries, (∀ w, (p.resolve w).1 = .ok entries) ∧
      ∀ (backends : Backends) (w : World), ∃ visits w',
        Trail backends (w.noting p.warnings) visits w' ∧ visits.map (·.entry) <+: entries ∧
        ((∀ v ∈ visits, v.outcome.fatal? = none) ∧ visits.map (·.entry) = entries ∧
            p.run backends w = (.ok (tally visits), w'.noting [.finished (tally visits)]) ∧
            (tally visits).succeeded + (tally visits).skipped + (tally visits).failed =
              entries.length ∨
          ∃ before last e, visits = before ++ [last] ∧
            (∀ v ∈ before, v.outcome.fatal? = none) ∧ last.outcome.fatal? = some e ∧
            p.run backends w = (.error e, w')) := by
  refine ⟨p.entries, fun w => congrArg Prod.fst (p.resolve_eq w), fun backends w => ?_⟩
  obtain ⟨visits, w', result, trail, concludes, visited⟩ :=
    visitAll_trail backends p.entries {} (w.noting p.warnings)
  have resolved : p.resolve w = (.ok p.entries, w.noting p.warnings) := p.resolve_eq w
  refine ⟨visits, w', trail, ?_⟩
  cases concludes with
  | finished all goesOn =>
      refine ⟨all ▸ List.prefix_rfl, .inl ⟨goesOn, all, ?_, ?_⟩⟩
      · unfold run
        rw [RunM.bind_of_ok resolved, RunM.bind_of_ok visited]
        simp only [sum, Nat.zero_add]
        rfl
      · rw [total_tally goesOn, ← all, List.length_map]
  | terminated before last front goesOn fatal =>
      refine ⟨front, .inr ⟨before, last, _, rfl, goesOn, fatal, ?_⟩⟩
      unfold run
      rw [RunM.bind_of_ok resolved, RunM.bind_of_error visited]

/-- One entry without a backend, and one each that is skipped, fails and succeeds. -/
def mixture : Plan where
  options := []
  spec :=
    [("targets", .object
      [("a", .object [("generators", .list
          [.object [("generator_class", .str "missing")], .object [("template", .str "skip")]])]),
       ("b", .object [("generators", .list
          [.object [("template", .str "fail")], .object [("template", .str "write")]])])])]

/-- A backend that does what the template of its entry is named for. -/
def obedient : Backend where
  name := "obedient"
  generate e w :=
    match e.config.text? "template" with
    | some "skip" => (.error (.config e.id .noModelFile), w)
    | some "fail" => (.error (.failedOutputs 1 e.id), w)
    | _ => (.ok (), w)

/-- Nothing in the mixture is fatal, so all four entries are carried out. -/
theorem run_accounts_of_mixture :
    let backends := Backends.empty.register Backends.defaultName obedient
    ∃ visits w', Trail backends ⟨.empty [], []⟩ visits w' ∧
      visits.map (fun v => (v.entry.target, v.entry.index)) =
        [("a", 0), ("a", 1), ("b", 0), ("b", 1)] ∧
      tally visits = ⟨1, 1, 2⟩ := by
  intro backends
  have report : (mixture.run backends ⟨.empty [], []⟩).1 = .ok ⟨1, 1, 2⟩ := rfl
  obtain ⟨entries, resolved, accounts⟩ := run_accounts mixture
  obtain ⟨visits, w', trail, _, ⟨_, all, run, _⟩ | ⟨_, _, e, _, _, _, run⟩⟩ :=
    accounts backends ⟨.empty [], []⟩
  · refine ⟨visits, w', trail, ?_, ?_⟩
    · have places : visits.map (fun v => (v.entry.target, v.entry.index)) =
          entries.map fun e => (e.target, e.index) := by
        rw [← all, List.map_map]
        rfl
      cases resolved ⟨.empty [], []⟩
      exact places
    · rw [run] at report
      exact Except.ok.inj report
  · rw [run] at report
    cases report

end Plan

end IdlGen
