import IdlGen.Generate.TemplateBackend
import IdlGen.Proofs.Generate.Accounting
import Mathlib.Data.List.DropRight
import Mathlib.Data.List.Forall2

/-!
# Before the first file is written

The template backend checks an entry, loads its model, makes the output directory, and reads the
template. `Preparation` lists all the ways in which that can end, each with the world that it
leaves. Nothing is read before the check has passed, and nothing is changed before the model is
loaded, so an entry that is skipped and one that ends the run leave the files as they were.
-/

namespace IdlGen

namespace Text

variable {cs : List Char}

/-- What is left behind the blanks is blank only if nothing is left. -/
theorem dropWhile_isBlank_eq_nil_iff :
    cs.dropWhile isBlank = [] ↔ ∀ c ∈ cs.dropWhile isBlank, isBlank c = true := by
  rw [← List.dropWhile_eq_nil_iff, List.dropWhile_idempotent]

@[simp] theorem trimBoth_eq_nil_iff : trimBoth cs = [] ↔ ∀ c ∈ cs, isBlank c = true := by
  rw [← List.dropWhile_eq_nil_iff, dropWhile_isBlank_eq_nil_iff, trimBoth, trimBack, trimFront,
    List.reverse_eq_nil_iff, List.dropWhile_eq_nil_iff]
  simp only [List.mem_reverse]

theorem blank_trimBoth_iff : (∀ c ∈ trimBoth cs, isBlank c = true) ↔ trimBoth cs = [] := by
  simp only [trimBoth, trimBack, List.mem_reverse, List.reverse_eq_nil_iff,
    ← dropWhile_isBlank_eq_nil_iff]

end Text

namespace Section

variable {s : Section} {key : String}

/-- There is no text under the key, or nothing but blanks in it. -/
def Blank (s : Section) (key : String) : Prop :=
  ∀ text, s.get? key = some (.str text) → ∀ c ∈ text.toList, Text.isBlank c = true

@[simp] theorem text?_eq_none_iff : s.text? key = none ↔ s.Blank key := by
  unfold text? Blank
  cases s.get? key with
  | none => simp
  | some value =>
      cases value with
      | str value => simp [Text.trim]
      | null | bool | int | double | list | object => simp

/-- A text that is given stays visible when it is trimmed again. -/
@[simp]
theorem nonBlank?_text?_eq_none_iff : SourceRef.nonBlank? (s.text? key) = none ↔ s.Blank key := by
  rw [← text?_eq_none_iff]
  unfold text?
  split
  · next value _ =>
      have again : Text.trim (Text.trim value) = "" ↔ Text.trim value = "" := by
        rw [Text.trim, String.ofList_eq_empty_iff, Text.trimBoth_eq_nil_iff, Text.trim,
          String.toList_ofList, Text.blank_trimBoth_iff, String.ofList_eq_empty_iff]
      by_cases empty : Text.trim value = ""
      · simp [empty, SourceRef.nonBlank?]
      · simp [empty, SourceRef.nonBlank?, again]
  · simp [SourceRef.nonBlank?]

@[simp] theorem resolve_eq_nowhere_iff (base dir : Option String) :
    SourceRef.resolve base dir (s.text? key) = .nowhere ↔ s.Blank key := by
  have somewhere (text : String) : SourceRef.ofText text ≠ .nowhere := by
    unfold SourceRef.ofText
    split <;> simp
  rw [← nonBlank?_text?_eq_none_iff]
  unfold SourceRef.resolve
  cases SourceRef.nonBlank? (s.text? key) with
  | none => simp
  | some file =>
      simp only [reduceCtorEq, iff_false]
      split
      · exact somewhere file
      · split
        · exact somewhere _
        · exact somewhere file

end Section

namespace Job

variable {config : Section} {id : String}

theorem toNat_toUpper (c : Char) :
    c.toUpper.toNat = if 97 ≤ c.toNat ∧ c.toNat ≤ 122 then c.toNat - 32 else c.toNat := by
  unfold Char.toUpper
  split
  · next small =>
      have low : 97 ≤ c.toNat := UInt32.le_iff_toNat_le.mp small.1
      have high : c.toNat ≤ 122 := UInt32.le_iff_toNat_le.mp small.2
      have difference : ('A'.val - 'a'.val).toNat = 4294967264 := by decide
      rw [if_pos ⟨low, high⟩]
      change (c.val + ('A'.val - 'a'.val)).toNat = c.toNat - 32
      rw [UInt32.toNat_add, difference]
      change (c.toNat + _) % _ = _
      omega
  · next other =>
      rw [if_neg fun small => other (small.imp UInt32.le_iff_toNat_le.mpr
        UInt32.le_iff_toNat_le.mpr)]

theorem toUpper_eq_capital_iff {c capital : Char} (small : Char)
    (low : 'A'.toNat ≤ capital.toNat) (high : capital.toNat ≤ 'Z'.toNat)
    (pair : small.toNat = capital.toNat + 32) : c.toUpper = capital ↔ c ∈ [small, capital] := by
  have bounds : 65 ≤ capital.toNat ∧ capital.toNat ≤ 90 := ⟨low, high⟩
  simp only [List.mem_pair, ← Char.toNat_inj, toNat_toUpper]
  split <;> omega

theorem toUpper_eq_eight_iff {c : Char} : c.toUpper = '8' ↔ c ∈ ['8'] := by
  simp only [List.mem_singleton, ← Char.toNat_inj, toNat_toUpper]
  change _ = 56 ↔ _ = 56
  split <;> omega

/-- The charset is `utf8` with letters of either case, and with dashes and bars anywhere. -/
def SpellsUtf8 (charset : String) : Prop :=
  List.Forall₂ (· ∈ ·) (charset.toList.filter fun c => c ≠ '-' ∧ c ≠ '_')
    [['u', 'U'], ['t', 'T'], ['f', 'F'], ['8']]

/-- A list has some images just if each of its members is among those with the image there. -/
theorem map_eq_iff_forall₂ {f : Char → Char} {images : List Char} {sources : List (List Char)}
    (fibers : List.Forall₂ (fun d set => ∀ c, f c = d ↔ c ∈ set) images sources)
    (cs : List Char) : cs.map f = images ↔ List.Forall₂ (· ∈ ·) cs sources := by
  induction fibers generalizing cs with
  | nil => simp
  | cons fiber _ ih => cases cs <;> simp [fiber, ih]

@[simp] theorem isUtf8_iff {charset : String} : isUtf8 charset = true ↔ SpellsUtf8 charset := by
  have letters : List.Forall₂ (fun d set => ∀ c : Char, c.toUpper = d ↔ c ∈ set)
      ['U', 'T', 'F', '8'] [['u', 'U'], ['t', 'T'], ['f', 'F'], ['8']] :=
    .cons (fun _ => toUpper_eq_capital_iff 'u' (by decide) (by decide) (by decide)) <|
    .cons (fun _ => toUpper_eq_capital_iff 't' (by decide) (by decide) (by decide)) <|
    .cons (fun _ => toUpper_eq_capital_iff 'f' (by decide) (by decide) (by decide)) <|
    .cons (fun _ => toUpper_eq_eight_iff) .nil
  simp only [isUtf8, SpellsUtf8, decide_eq_true_eq, map_eq_iff_forall₂ letters, Bool.decide_and]

/-- The names of the five modes. -/
def modes : List String := ["none", "struct", "union", "enum", "service"]

/-- The configuration lacks something, or has something in its place that does not do. -/
inductive Lacking (config : Section) : Prop
  | model (blank : (config.sub "options").Blank "model_file")
  | template (blank : config.Blank "template")
  | mode {mode : String} (given : config.text? "iterate" = some mode) (unknown : mode ∉ modes)
  | charset {charset : String}
      (given : (config.sub "options").text? "output_charset" = some charset)
      (other : ¬ SpellsUtf8 charset)
  | fileName (whole : config.textOr "iterate" "none" = "none") (blank : config.Blank "filename")

theorem required_cases {s : Section} {key : String} (fault : ConfigFault)
    (base dir : Option String) :
    s.Blank key ∧ required fault (.resolve base dir (s.text? key)) = .error fault ∨
      ¬ s.Blank key ∧ ∃ r, required fault (.resolve base dir (s.text? key)) = .ok r := by
  unfold required
  by_cases blank : s.Blank key
  · exact .inl ⟨blank, if_pos ((Section.resolve_eq_nowhere_iff base dir).mpr blank)⟩
  · exact .inr ⟨blank, _, if_neg (mt (Section.resolve_eq_nowhere_iff base dir).mp blank)⟩

theorem mode?_cases (mode : String) :
    mode ∉ modes ∧ mode? mode = .error (.badIteration mode) ∨
      mode = "none" ∧ mode? mode = .ok none ∨
      ∃ kind : DeclKind, mode = kind.key ∧ mode? mode = .ok (some kind) := by
  unfold mode?
  by_cases whole : mode = "none"
  · exact .inr (.inl ⟨whole, if_pos whole⟩)
  · rw [if_neg whole]
    cases named : DeclKind.ofKey? mode with
    | some kind =>
        have key : kind.key = mode := by simpa using List.find?_some named
        exact .inr (.inr ⟨kind, key.symm, rfl⟩)
    | none =>
        refine .inl ⟨fun known => ?_, rfl⟩
        rcases List.mem_cons.mp known with isWhole | isKind
        · exact whole isWhole
        · obtain ⟨kind, listed, key⟩ : ∃ kind ∈ [DeclKind.struct, .union, .enum, .service],
              kind.key = mode := List.mem_map.mp isKind
          exact List.find?_eq_none.mp named kind listed (decide_eq_true key)

@[simp] theorem key_mem_modes (kind : DeclKind) : kind.key ∈ modes := by
  cases kind <;> decide

@[simp] theorem key_ne_none (kind : DeclKind) : kind.key ≠ "none" := by
  cases kind <;> decide

theorem not_mem_modes_iff :
    config.textOr "iterate" "none" ∉ modes ↔
      ∃ mode, config.text? "iterate" = some mode ∧ mode ∉ modes := by
  unfold Section.textOr
  cases config.text? "iterate" with
  | none => simp [modes]
  | some mode => simp

theorem checkCharset_cases (options : Section) :
    (∃ charset, options.text? "output_charset" = some charset ∧ ¬ SpellsUtf8 charset ∧
        checkCharset (options.textOr "output_charset" "UTF-8") = .error (.badCharset charset)) ∨
      (∀ charset, options.text? "output_charset" = some charset → SpellsUtf8 charset) ∧
        checkCharset (options.textOr "output_charset" "UTF-8") = .ok () := by
  unfold Section.textOr
  cases options.text? "output_charset" with
  | none => exact .inr ⟨by simp, rfl⟩
  | some charset =>
      by_cases spelled : SpellsUtf8 charset
      · refine .inr ⟨fun _ same => Option.some.inj same ▸ spelled, ?_⟩
        exact if_pos (isUtf8_iff.mpr spelled)
      · exact .inl ⟨charset, rfl, spelled, if_neg (mt isUtf8_iff.mp spelled)⟩

/-- The job is what a configuration asks for. -/
structure AskedBy (given : Section) (label : String) (j : Job) : Prop where
  id : j.id = label
  config : j.config = given
  options : j.options = given.sub "options"
  iteration : (given.textOr "iterate" "none" = "none" ∧
      ∃ fileName, given.text? "filename" = some fileName ∧ j.iteration = .whole fileName) ∨
    ∃ kind : DeclKind, given.textOr "iterate" "none" = kind.key ∧ j.iteration = .each kind

/-- The check refuses a configuration that lacks something, and no other. -/
theorem check_cases (config : Section) (id : String) :
    (Lacking config ∧ ∃ fault, check config id = .error fault) ∨
      ¬ Lacking config ∧ ∃ j, check config id = .ok j ∧ AskedBy config id j := by
  rcases required_cases .noModelFile none none with ⟨blank, model⟩ | ⟨hasModel, r, model⟩
  · refine .inl ⟨.model blank, .noModelFile, ?_⟩
    simp only [check, model]
    rfl
  rcases required_cases .noTemplate ((config.sub "options").text? "base_input_dir")
    ((config.sub "options").text? "input_dir") with ⟨blank, template⟩ | ⟨hasTemplate, r', template⟩
  · refine .inl ⟨.template blank, .noTemplate, ?_⟩
    simp only [check, model, template]
    rfl
  rcases mode?_cases (config.textOr "iterate" "none") with ⟨unknown, mode⟩ | known
  · obtain ⟨name, given, unknown⟩ := not_mem_modes_iff.mp unknown
    refine .inl ⟨.mode given unknown, .badIteration (config.textOr "iterate" "none"), ?_⟩
    simp only [check, model, template, mode]
    rfl
  rcases checkCharset_cases (config.sub "options") with
    ⟨name, given, other, charset⟩ | ⟨utf8, charset⟩
  · refine .inl ⟨.charset given other, .badCharset name, ?_⟩
    rcases known with ⟨_, mode⟩ | ⟨_, _, mode⟩
    · simp only [check, model, template, mode, charset]
      rfl
    · simp only [check, model, template, mode, charset]
      rfl
  have complete (isMode : config.textOr "iterate" "none" ∈ modes)
      (named : config.textOr "iterate" "none" = "none" → ¬ config.Blank "filename") :
      ¬ Lacking config := by
    intro lacking
    cases lacking with
    | model blank => exact hasModel blank
    | template blank => exact hasTemplate blank
    | mode given unknown => exact not_mem_modes_iff.mpr ⟨_, given, unknown⟩ isMode
    | charset given other => exact other (utf8 _ given)
    | fileName whole blank => exact named whole blank
  rcases known with ⟨whole, mode⟩ | ⟨kind, key, mode⟩
  · cases file : config.text? "filename" with
    | none =>
        refine .inl ⟨.fileName whole (Section.text?_eq_none_iff.mp file), .noFileName, ?_⟩
        simp only [check, model, template, mode, charset, file]
        rfl
    | some fileName =>
        have visible : ¬ config.Blank "filename" := by
          rw [← Section.text?_eq_none_iff, file]
          exact Option.some_ne_none _
        refine .inr ⟨complete (by simp [whole, modes]) fun _ => visible,
          ⟨id, config, config.sub "options", r, r', .whole fileName⟩, ?_,
          rfl, rfl, rfl, .inl ⟨whole, fileName, file, rfl⟩⟩
        simp only [check, model, template, mode, charset, file]
        rfl
  · refine .inr ⟨complete (key ▸ key_mem_modes kind) fun whole => ?_,
      ⟨id, config, config.sub "options", r, r', .each kind⟩, ?_,
      rfl, rfl, rfl, .inr ⟨kind, key, rfl⟩⟩
    · exact absurd (key.symm.trans whole) (key_ne_none kind)
    · simp only [check, model, template, mode, charset]
      rfl

end Job

namespace RunM

variable {α : Type} {w : World}

/-- Loading does not touch the files. -/
theorem load_eq {action : FileTree → LoadM α} {result : Except SourceError α} {τ : LoadState}
    (ran : (action w.files).exec {} = (result, τ)) :
    load action w = (.ok result, w.noting (τ.log.map .load)) := by
  change (Except.ok ((action w.files).exec {}).1,
    w.noting (((action w.files).exec {}).2.log.map .load)) = _
  rw [ran]

theorem mustLoad_eq {action : FileTree → LoadM α} {result : Except SourceError α} {τ : LoadState}
    (ran : (action w.files).exec {} = (result, τ)) :
    mustLoad action w = (result.mapError .source, w.noting (τ.log.map .load)) := by
  unfold mustLoad
  rw [bind_of_ok (load_eq ran)]
  cases result <;> rfl

theorem makeDirectories_eq {path : String} {result : Except FileError Unit} {files : FileTree}
    (ran : w.files.makeDirectories path = (result, files)) :
    makeDirectories path w = (result.mapError (.file path), ⟨files, w.log⟩) := by
  unfold makeDirectories
  rw [ran]

end RunM

namespace TemplateBackend

variable {language : TemplateLanguage} {sets : HelperSets} {e : Entry} {w w' : World}

/-- The sets that there are among those that an entry asks for, by the keys that it gives them. -/
def registered (sets : HelperSets) (asked : Section) : Section :=
  (asked.filter fun member => (sets.lookup (helperName member.2)).isSome).map
    fun member => (member.1, .str (helperName member.2))

/-- Installing helpers does nothing but tell which of them there are not. -/
theorem install_eq (sets : HelperSets) (id : String) (asked : Section) (start : Installed) :
    ∃ helpers events, ∀ w, install sets id asked start w =
      (.ok ⟨helpers, start.names.overlay (registered sets asked)⟩, w.noting events) := by
  induction asked generalizing start with
  | nil => exact ⟨start.helpers, [], fun w => by simp only [World.noting, List.append_nil]; rfl⟩
  | cons member asked ih =>
      obtain ⟨key, helper⟩ := member
      cases found : sets.lookup (helperName helper) with
      | some set =>
          simp only [install, found, registered, List.filter_cons, Option.isSome_some, if_true,
            List.map_cons]
          exact ih _
      | none =>
          obtain ⟨helpers, events, rest⟩ := ih start
          refine ⟨helpers, .unknownHelpers helper id :: events, fun w => ?_⟩
          have told : RunM.tell (.unknownHelpers helper id) w =
              (.ok (), w.noting [.unknownHelpers helper id]) := rfl
          simp only [install, found, registered, List.filter_cons, Option.isSome_none,
            Bool.false_eq_true, if_false]
          rw [RunM.bind_of_ok told, rest]
          simp only [World.noting, List.append_assoc, List.singleton_append, registered]

/-- How the preparation of an entry can end, and the world that it leaves. -/
inductive Preparation (language : TemplateLanguage) (sets : HelperSets) (e : Entry) (w : World) :
    Except GenError Prepared × World → Prop
  /-- The check refuses the entry. -/
  | refused {fault : ConfigFault} (checked : Job.check e.config e.id = .error fault) :
      Preparation language sets e w (.error (.config e.id fault), w)
  /-- The model cannot be loaded. -/
  | unloaded {j : Job} {cause : SourceError} {τ : LoadState}
      (checked : Job.check e.config e.id = .ok j)
      (loaded : (loadModel w.files j.model).exec {} = (.error cause, τ)) :
      Preparation language sets e w (.error (.source cause), w.noting (τ.log.map .load))
  /-- The directory cannot be made, or the template cannot be read or is malformed. -/
  | stuck {j : Job} {m : Model} {τ : LoadState} {err : GenError} {w' : World}
      (checked : Job.check e.config e.id = .ok j)
      (loaded : (loadModel w.files j.model).exec {} = (.ok m, τ))
      (kind : err.isConfig = false ∧ err.isFatal = false) :
      Preparation language sets e w (.error err, w')
  | ready {j : Job} {m : Model} {τ : LoadState} {files : FileTree} {text : String}
      {helpers : HelperSet} {log : List Event}
      {render : HelperSet → Section → Except TemplateError String}
      (checked : Job.check e.config e.id = .ok j)
      (loaded : (loadModel w.files j.model).exec {} = (.ok m, τ))
      (made : w.files.makeDirectories (Output.directory j.options m) = (.ok (), files))
      (read : ((LoadM.readSource files j.template).exec {}).1 = .ok text)
      (compiled : language (j.template.fileName?.getD "template") text = .ok render) :
      Preparation language sets e w
        (.ok ⟨j, m, Output.directory j.options m, j.template.fileName?.getD "template",
          .ofMembers (registered sets (j.config.sub "helper_classes")), render helpers⟩,
          ⟨files, log⟩)

theorem prepare_cases (language : TemplateLanguage) (sets : HelperSets) (e : Entry) (w : World) :
    Preparation language sets e w (prepare language sets e w) := by
  unfold prepare
  rcases checked : Job.check e.config e.id with fault | j
  · exact .refused checked
  rcases loaded : (loadModel w.files j.model).exec {} with ⟨cause | m, τ⟩
  all_goals
    have load : RunM.mustLoad (fun files => loadModel files j.model) w = _ :=
      RunM.mustLoad_eq loaded
  · simp only [pure_bind]
    rw [RunM.bind_of_error load]
    exact .unloaded checked loaded
  simp only [pure_bind]
  rw [RunM.bind_of_ok load]
  rcases made : w.files.makeDirectories (Output.directory j.options m) with ⟨cause | done, files⟩
  all_goals
    have make : RunM.makeDirectories _ (w.noting (τ.log.map .load)) = _ :=
      RunM.makeDirectories_eq made
  · rw [RunM.bind_of_error make]
    exact .stuck checked loaded ⟨rfl, rfl⟩
  rw [RunM.bind_of_ok make]
  rcases template : (LoadM.readSource files j.template).exec {} with ⟨content, τ'⟩
  have read (log : List Event) :
      RunM.load (fun files => LoadM.readSource files j.template) ⟨files, log⟩ = _ :=
    RunM.load_eq template
  rw [RunM.bind_of_ok (read _)]
  rcases content with cause | text
  · exact .stuck checked loaded ⟨rfl, rfl⟩
  obtain ⟨helpers, events, install⟩ := install_eq sets j.id (j.config.sub "helper_classes") {}
  dsimp only
  rw [RunM.bind_of_ok (install _)]
  rcases compiled : language (j.template.fileName?.getD "template") text with cause | render
  · exact .stuck checked loaded ⟨rfl, rfl⟩
  · exact .ready checked loaded made (congrArg Prod.fst template) compiled

end TemplateBackend

end IdlGen
