import IdlGen.Proofs.Generate.Attempts

/-!
# Refusals

An entry that lacks something is refused, and so is one whose model cannot be loaded. Both happen
before anything is written. Whether an entry lacks something shows in its configuration alone, so a
refusal for that reason comes before anything is read.
-/

namespace IdlGen.TemplateBackend

variable {language : TemplateLanguage} {sets : HelperSets} {e : Entry} {w w' : World}

/-- An entry that cannot be prepared ends there. -/
theorem generate_of_unprepared {err : GenError}
    (stopped : prepare language sets e w = (.error err, w')) :
    generate language sets e w = (.error err, w') :=
  RunM.bind_of_error stopped

/-- From the first file on, an entry neither is skipped nor ends the run. -/
theorem kind_of_prepared {p : Prepared} {err : GenError}
    (ready : prepare language sets e w = (.ok p, w'))
    (failed : (generate language sets e w).1 = .error err) :
    err.isConfig = false ∧ err.isFatal = false := by
  obtain ⟨attempts, w₂, _, _, ran⟩ := generate_eq ready
  rw [ran] at failed
  dsimp only at failed
  split at failed
  · cases failed
  · cases failed
    exact ⟨rfl, rfl⟩

/-- What lacks something is refused in any world, and leaves that as it is. -/
theorem generate_of_lacking (language : TemplateLanguage) (sets : HelperSets)
    (lacking : Job.Lacking e.config) :
    ∃ fault, ∀ w, generate language sets e w = (.error (.config e.id fault), w) := by
  rcases Job.check_cases e.config e.id with ⟨_, fault, refused⟩ | ⟨complete, _⟩
  · refine ⟨fault, fun w => generate_of_unprepared ?_⟩
    rw [prepare, refused]
    rfl
  · exact absurd lacking complete

theorem lacking_of_config {id : String} {fault : ConfigFault}
    (failed : (generate language sets e w).1 = .error (.config id fault)) :
    Job.Lacking e.config := by
  have ended := prepare_cases language sets e w
  rcases prepared : prepare language sets e w with ⟨err | p, w₁⟩
  · rw [generate_of_unprepared prepared] at failed
    rw [prepared] at ended
    cases failed
    cases ended with
    | refused checked =>
        rcases Job.check_cases e.config e.id with ⟨lacking, _⟩ | ⟨_, j, passed, _⟩
        · exact lacking
        · cases passed.symm.trans checked
    | stuck _ _ kind => cases kind.1
  · cases (kind_of_prepared prepared failed).1

/-- A model that cannot be loaded is refused before a directory is made. -/
theorem files_of_source {cause : SourceError}
    (failed : (generate language sets e w).1 = .error (.source cause)) :
    (generate language sets e w).2.files = w.files := by
  have ended := prepare_cases language sets e w
  rcases prepared : prepare language sets e w with ⟨err | p, w₁⟩
  · rw [generate_of_unprepared prepared] at failed ⊢
    rw [prepared] at ended
    cases failed
    cases ended with
    | unloaded => rfl
    | stuck _ _ kind => cases kind.2
  · cases (kind_of_prepared prepared failed).2

/-- An entry is refused for its configuration just if that lacks something, and then it leaves no
trace: the files are as they were, and the log, which tells of all that is read, does not grow. An
entry that is refused for its model leaves the files as they were. -/
theorem refused_without_trace (language : TemplateLanguage) (sets : HelperSets) (e : Entry) :
    (∀ w, (∃ id fault, (generate language sets e w).1 = .error (.config id fault)) ↔
        Job.Lacking e.config) ∧
      (Job.Lacking e.config →
        ∃ fault, ∀ w, generate language sets e w = (.error (.config e.id fault), w)) ∧
      ∀ w cause, (generate language sets e w).1 = .error (.source cause) →
        (generate language sets e w).2.files = w.files := by
  refine ⟨fun w => ⟨?_, ?_⟩, generate_of_lacking language sets, ?_⟩
  · intro ⟨id, fault, failed⟩
    exact lacking_of_config failed
  · intro lacking
    obtain ⟨fault, refused⟩ := generate_of_lacking language sets lacking
    exact ⟨e.id, fault, congrArg Prod.fst (refused w)⟩
  · intro w cause failed
    exact files_of_source failed

/-- Entries with a mode that there is not and with a model that is no definition. Neither makes the
output directory. -/
theorem refused_without_trace_of_mode_and_model :
    let w : World := ⟨⟨[], [(["m.thrift"], .file (.text "struct \x7b\x7d"))], []⟩, []⟩
    let entry (mode : String) : Entry := ⟨"t", 0, [("options", .object
      [("model_file", .str "m.thrift"), ("output_dir", .str "out")]), ("template", .str "t.txt"),
      ("iterate", .str mode)]⟩
    let cause : SourceError := .parse "m.thrift" ⟨1, 8⟩ (.expected .identifier "\x7b")
    Job.Lacking (entry "structs").config ∧
      (∃ fault, generate Template.language [] (entry "structs") w =
        (.error (.config (entry "structs").id fault), w)) ∧
      (generate Template.language [] (entry "struct") w).1 = .error (.source cause) ∧
      (generate Template.language [] (entry "struct") w).2.files = w.files := by
  intro w entry cause
  have lacking : Job.Lacking (entry "structs").config :=
    .mode (show _ = some "structs" by decide) (by decide)
  have failed : (generate Template.language [] (entry "struct") w).1 = .error (.source cause) := by
    decide +kernel
  obtain ⟨_, refuses, _⟩ := refused_without_trace Template.language [] (entry "structs")
  obtain ⟨_, _, unchanged⟩ := refused_without_trace Template.language [] (entry "struct")
  obtain ⟨fault, refused⟩ := refuses lacking
  exact ⟨lacking, ⟨fault, refused w⟩, failed, unchanged w cause failed⟩

end IdlGen.TemplateBackend
