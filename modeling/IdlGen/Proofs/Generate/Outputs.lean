import IdlGen.Proofs.Files.Writing
import IdlGen.Proofs.Generate.Attempts
import IdlGen.Proofs.Generate.FileNames

/-!
# What becomes of the renderings

An entry that succeeds has rendered and written a file for each declaration of its kind. The names
of two declarations can be converted to the same one. Their files then go to one place, where the
last rendering stays. So all renderings stay just if those that go to one place are equal.
-/

namespace IdlGen

theorem forall₂_comp {α β γ : Type} {R : α → β → Prop} {S : β → γ → Prop} {xs : List α}
    {ys : List β} {zs : List γ} (first : List.Forall₂ R xs ys) (second : List.Forall₂ S ys zs) :
    List.Forall₂ (fun x z => ∃ y, R x y ∧ S y z) xs zs := by
  induction first generalizing zs with
  | nil =>
      cases second
      exact .nil
  | cons related _ ih =>
      cases second with
      | cons related' rest => exact .cons ⟨_, related, related'⟩ (ih rest)

theorem forall_mem_iff_of_forall₂ {α β : Type} {R : α → β → Prop} {P : α → Prop} {Q : β → Prop}
    {xs : List α} {ys : List β} (related : List.Forall₂ R xs ys)
    (iff : ∀ x y, R x y → (P x ↔ Q y)) : (∀ x ∈ xs, P x) ↔ ∀ y ∈ ys, Q y := by
  induction related with
  | nil => simp
  | cons first _ ih => rw [List.forall_mem_cons, List.forall_mem_cons, iff _ _ first, ih]

theorem Path.ends_join {name : String} (plain : '/' ∉ name.toList) (dir : String) :
    Ends (join dir name).toList name.toList := by
  unfold join
  split
  · exact .whole plain
  · split
    · next slash =>
        obtain ⟨front, isFront⟩ := List.isSuffixOf_iff_suffix.mp slash
        rw [String.toList_append, ← isFront, List.append_assoc]
        exact .after front plain
    · rw [String.toList_append, String.toList_append, List.append_assoc]
      exact .after dir.toList plain

/-- A file is written under its own name, if that holds no slash. -/
theorem FileTree.Admits.head?_eq {t : FileTree} {dir name : String} {loc : Location}
    (admits : t.Admits (Path.join dir name) loc) (plain : '/' ∉ name.toList) :
    loc.head? = some name := by
  have ends := Path.ends_join plain dir
  have nonempty : name.toList ≠ [] := by
    intro empty
    have visible : Path.join dir name ≠ "" := by
      intro blank
      have located := admits.located
      rw [blank] at located
      cases located
    rw [empty] at ends
    exact absurd (ends.endsWith_slash visible) (Bool.eq_false_iff.mp admits.noSlash)
  obtain ⟨front, segments⟩ := ends.segments nonempty
  rw [admits.named, segments, List.getLast?_concat, String.ofList_toList]

theorem Model.BuiltBy.declarations_named {m : Model} {names elements : String → Prop}
    (built : m.BuiltBy (Declaration.Named names elements)) :
    ∀ symbol ∈ m.declarations, names symbol.name := by
  refine built.rec_add (P := fun m => ∀ symbol ∈ m.declarations, names symbol.name) ?_
    (fun _ _ before => before) ?_
  · intro name symbol member
    exact absurd member List.not_mem_nil
  · intro m s d named before _ symbol member
    rcases List.mem_cons.mp ((declarations_push d _).mem_iff.mp member) with rfl | old
    · rw [Declaration.name_symbol]
      exact named.1
    · exact before symbol old

namespace Prepared

variable {p : Prepared} {files files' : FileTree} {kind : DeclKind} {symbol symbol' : Symbol}
  {place place' : Location × String}

/-- A file can be written at a place, and its rendering is the text there. -/
def Lands (p : Prepared) (files : FileTree) (o : OutputFile) (place : Location × String) : Prop :=
  files.Admits (p.path o) place.1 ∧ p.render (p.sees o) = .ok place.2

/-- The file for a declaration goes to a place, with a text. -/
def Puts (p : Prepared) (files : FileTree) (kind : DeclKind) (symbol : Symbol)
    (place : Location × String) : Prop :=
  ∃ o, p.naming.output? kind symbol = some o ∧ p.Lands files o place

/-- The files hold the rendering of a declaration. -/
def Keeps (p : Prepared) (files : FileTree) (kind : DeclKind) (symbol : Symbol) : Prop :=
  ∃ o text, p.naming.output? kind symbol = some o ∧ p.render (p.sees o) = .ok text ∧
    files.read (p.path o) = .ok text

/-- The files for two declarations go to one place with different texts. -/
def Clash (p : Prepared) (files : FileTree) (kind : DeclKind) (symbol symbol' : Symbol) : Prop :=
  ∃ place place', p.Puts files kind symbol place ∧ p.Puts files kind symbol' place' ∧
    place.1 = place'.1 ∧ place.2 ≠ place'.2

theorem Puts.unique (puts : p.Puts files kind symbol place)
    (puts' : p.Puts files kind symbol place') : place = place' := by
  obtain ⟨o, file, admits, rendered⟩ := puts
  obtain ⟨o', file', admits', rendered'⟩ := puts'
  cases file.symm.trans file'
  exact Prod.ext (Except.ok.inj (admits.located.symm.trans admits'.located))
    (Except.ok.inj (rendered.symm.trans rendered'))

theorem Puts.keeps_iff (puts : p.Puts files kind symbol place)
    (same : files.SameDirectories files') :
    p.Keeps files' kind symbol ↔ files'.node? place.1 = some (.file (.text place.2)) := by
  obtain ⟨o, file, admits, rendered⟩ := puts
  have located' : files'.locate (p.path o) = .ok place.1 := same.locate admits.located
  constructor
  · intro ⟨o', text, file', rendered', read⟩
    cases file.symm.trans file'
    cases rendered.symm.trans rendered'
    obtain ⟨loc, located, there⟩ := FileTree.read_eq_ok_iff.mp read
    cases located'.symm.trans located
    exact there
  · intro there
    exact ⟨o, place.2, file, rendered, FileTree.read_eq_ok_iff.mpr ⟨_, located', there⟩⟩

theorem Puts.clash_iff (puts : p.Puts files kind symbol place)
    (puts' : p.Puts files kind symbol' place') :
    p.Clash files kind symbol symbol' ↔ place.1 = place'.1 ∧ place.2 ≠ place'.2 := by
  constructor
  · intro ⟨_, _, first, second, clash⟩
    rwa [puts.unique first, puts'.unique second]
  · intro clash
    exact ⟨place, place', puts, puts', clash⟩

/-- The renderings stay just if no two of them clash. -/
theorem forall_keeps_iff {symbols : List Symbol} {places : List (Location × String)}
    (puts : List.Forall₂ (p.Puts files kind) symbols places)
    (same : files.SameDirectories (files.putAll places)) :
    (∀ symbol ∈ symbols, p.Keeps (files.putAll places) kind symbol) ↔
      ∀ symbol ∈ symbols, ∀ symbol' ∈ symbols, ¬ p.Clash files kind symbol symbol' := by
  have notRoot : ∀ place ∈ places, place.1 ≠ [] := by
    intro place member
    obtain ⟨symbol, _, o, _, admits, _⟩ := exists_of_mem_forall₂ puts member
    exact admits.notRoot
  calc (∀ symbol ∈ symbols, p.Keeps (files.putAll places) kind symbol)
    _ ↔ ∀ place ∈ places, (files.putAll places).node? place.1 = some (.file (.text place.2)) :=
        forall_mem_iff_of_forall₂ puts fun _ _ put => put.keeps_iff same
    _ ↔ ∀ place ∈ places, ∀ place' ∈ places, place.1 = place'.1 → place.2 = place'.2 :=
        FileTree.forall_node?_putAll_iff notRoot
    _ ↔ ∀ symbol ∈ symbols, ∀ symbol' ∈ symbols, ¬ p.Clash files kind symbol symbol' := by
        symm
        apply forall_mem_iff_of_forall₂ puts
        intro symbol place put
        apply forall_mem_iff_of_forall₂ puts
        intro symbol' place' put'
        rw [put.clash_iff put', not_and, not_not]

/-- Files go to one place just if their declarations are converted to the same name, unless the
configuration brings slashes into the names of files. -/
theorem Puts.place_eq_iff (plain : p.naming.Plain) (wordy : Text.Wordy symbol.name.toList)
    (wordy' : Text.Wordy symbol'.name.toList) (puts : p.Puts files kind symbol place)
    (puts' : p.Puts files kind symbol' place') :
    place.1 = place'.1 ↔ p.naming.convert symbol.name = p.naming.convert symbol'.name := by
  obtain ⟨o, file, admits, _⟩ := puts
  obtain ⟨o', file', admits', _⟩ := puts'
  obtain ⟨view, _, rfl⟩ := Option.map_eq_some_iff.mp file
  obtain ⟨view', _, rfl⟩ := Option.map_eq_some_iff.mp file'
  rw [← FileNaming.fileName_eq_iff]
  constructor
  · intro same
    have head := admits.head?_eq (FileNaming.slash_notMem_fileName plain wordy)
    have head' := admits'.head?_eq (FileNaming.slash_notMem_fileName plain wordy')
    rw [same, head'] at head
    exact (Option.some.inj head).symm
  · intro same
    have located : files.locate (Path.join p.directory _) = .ok place.1 := admits.located
    dsimp only at located
    rw [same] at located
    exact Except.ok.inj (located.symm.trans admits'.located)

end Prepared

namespace TemplateBackend

variable {language : TemplateLanguage} {sets : HelperSets} {e : Entry} {p : Prepared}
  {w w' : World} {attempts : List Attempt}

/-- Attempts that succeed put their texts one after the other, each where a file can be. -/
theorem Attempts.puts (leads : Attempts p w attempts w')
    (succeeded : ∀ a ∈ attempts, a.result = .ok ()) :
    ∃ places, w'.files = w.files.putAll places ∧ w.files.SameDirectories w'.files ∧
      List.Forall₂ (p.Lands w.files) (attempts.map (·.output)) places := by
  induction leads with
  | nil w => exact ⟨[], rfl, .refl _, .nil⟩
  | cons first rest ih =>
      obtain ⟨ok, others⟩ := List.forall_mem_cons.mp succeeded
      cases first with
      | unrendered => cases ok
      | unwritten => cases ok
      | @written o text _ _ rendered done =>
          obtain ⟨loc, admits, rfl⟩ := FileTree.exists_of_write done
          obtain ⟨places, later, same, lands⟩ := ih others
          have here := admits.sameDirectories (.text text)
          refine ⟨(loc, text) :: places, later, here.trans same, .cons ⟨admits, rendered⟩ ?_⟩
          exact lands.imp fun o place lands => ⟨here.symm.admits lands.1, lands.2⟩

theorem iteration_of_key {j : Job} {kind : DeclKind} (asked : j.AskedBy e.config e.id)
    (iterates : e.config.textOr "iterate" "none" = kind.key) : j.iteration = .each kind := by
  rcases asked.iteration with ⟨whole, _⟩ | ⟨kind', key, each⟩
  · exact absurd (iterates.symm.trans whole) (Job.key_ne_none kind)
  · have named (k : DeclKind) : DeclKind.ofKey? k.key = some k := by cases k <;> rfl
    have same : some kind' = some kind := by
      rw [← named kind', ← named kind, ← key, iterates]
    exact Option.some.inj same ▸ each

/-- An entry that succeeds was prepared, and all of its attempts succeeded. -/
theorem exists_of_generate (succeeded : generate language sets e w = (.ok (), w')) :
    ∃ p w₁ attempts, prepare language sets e w = (.ok p, w₁) ∧
      p.Covers (attempts.map (·.output)) ∧ (∀ a ∈ attempts, a.result = .ok ()) ∧
      ∃ w₂, Attempts p w₁ attempts w₂ ∧ w'.files = w₂.files := by
  rcases prepared : prepare language sets e w with ⟨err | p, w₁⟩
  · cases (RunM.bind_of_error prepared).symm.trans succeeded
  · obtain ⟨attempts, w₂, leads, covers, ran⟩ := generate_eq prepared
    rw [succeeded] at ran
    obtain ⟨result, world⟩ := Prod.mk.inj ran
    have none : failures attempts = 0 := by
      by_contra some
      rw [if_neg some] at result
      cases result
    exact ⟨p, w₁, attempts, rfl, covers, failures_eq_zero_iff.mp none, w₂, leads, world ▸ rfl⟩

/-- When an entry succeeds that is for each declaration of a kind, each of these has been rendered
and put in a place. All the renderings are still there just if no two of them clash. Unless the
configuration brings slashes into the names of files, two files go to one place just if the names of
their declarations are converted to the same one. -/
theorem renderings_kept_iff {kind : DeclKind}
    (iterates : e.config.textOr "iterate" "none" = kind.key)
    (succeeded : generate language sets e w = (.ok (), w')) :
    ∃ p w₁, prepare language sets e w = (.ok p, w₁) ∧
      (∀ symbol ∈ p.model.ofKind kind, ∃ place, p.Puts w₁.files kind symbol place) ∧
      ((∀ symbol ∈ p.model.ofKind kind, p.Keeps w'.files kind symbol) ↔
        ∀ symbol ∈ p.model.ofKind kind, ∀ symbol' ∈ p.model.ofKind kind,
          ¬ p.Clash w₁.files kind symbol symbol') ∧
      (p.naming.Plain → ∀ symbol ∈ p.model.ofKind kind, ∀ symbol' ∈ p.model.ofKind kind,
        ∀ place place', p.Puts w₁.files kind symbol place → p.Puts w₁.files kind symbol' place' →
          (place.1 = place'.1 ↔
            p.naming.convert symbol.name = p.naming.convert symbol'.name)) := by
  obtain ⟨p, w₁, attempts, ready, covers, all, w₂, leads, files⟩ := exists_of_generate succeeded
  obtain ⟨places, put, same, lands⟩ := leads.puts all
  have readies := readies_of_prepare ready
  have iteration : p.job.iteration = .each kind := iteration_of_key readies.asked iterates
  have puts : List.Forall₂ (p.Puts w₁.files kind) (p.model.ofKind kind) places :=
    forall₂_comp (covers.each_of iteration) lands
  rw [files, put]
  rw [put] at same
  refine ⟨p, w₁, ready, ?_, Prepared.forall_keeps_iff puts same, ?_⟩
  · intro symbol member
    obtain ⟨place, _, puts⟩ := exists_of_mem_forall₂ puts.flip member
    exact ⟨place, puts⟩
  · intro plain symbol member symbol' member' place place' puts puts'
    obtain ⟨τ, loaded⟩ := readies.loaded
    have identifiers := (built_and_valid_of_load loaded).1.declarations_named
    have wordy {symbol : Symbol} (member : symbol ∈ p.model.ofKind kind) :
        Text.Wordy symbol.name.toList :=
      Shape.isNameChar_of_isIdentifier (identifiers symbol (List.mem_filter.mp member).1)
    exact puts.place_eq_iff plain (wordy member) (wordy member') puts'

/-- Two structs are rendered into one file, of which only the last rendering is left. The entry
succeeds nevertheless. -/
theorem rendering_lost_of_converted_names :
    let w : World := ⟨⟨[], [(["m.thrift"], .file (.text
      "struct user_id \x7b\x7d struct UserId \x7b\x7d")), (["t.txt"], .file (.text ""))], []⟩,
      []⟩
    let e : Entry := ⟨"t", 0, [("options", .object [("model_file", .str "m.thrift"),
      ("output_dir", .str "out")]), ("template", .str "t.txt"), ("iterate", .str "struct")]⟩
    let language : TemplateLanguage := fun _ _ => .ok fun _ context =>
      .ok ((context.sub "struct").textOr "name" "")
    let w' := (generate language [] e w).2
    generate language [] e w = (.ok (), w') ∧ w'.files.read "out/UserId" = .ok "UserId" ∧
      ∃ p w₁, prepare language [] e w = (.ok p, w₁) ∧
        (p.model.ofKind .struct).map (·.name) = ["user_id", "UserId"] ∧
        (∃ symbol ∈ p.model.ofKind .struct, ∃ symbol' ∈ p.model.ofKind .struct,
          p.Clash w₁.files .struct symbol symbol') ∧
        ¬ ∀ symbol ∈ p.model.ofKind .struct, p.Keeps w'.files .struct symbol := by
  intro w e language w'
  have ran : (generate language [] e w).1 = .ok () ∧
      (generate language [] e w).2.files.read "out/UserId" = .ok "UserId" := by
    decide +kernel
  have prepared : ((prepare language [] e w).1.toOption.map fun p =>
      (p.model.ofKind .struct).map fun symbol => (symbol.name,
        (p.naming.output? .struct symbol).map fun o =>
          (p.path o, (p.render (p.sees o)).toOption))) =
      some [("user_id", some ("out/UserId", some "user_id")),
        ("UserId", some ("out/UserId", some "UserId"))] := by
    decide +kernel
  have run : generate language [] e w = (.ok (), w') := eq_mk_of_fst ran.1
  have iterates : e.config.textOr "iterate" "none" = DeclKind.struct.key := by decide
  obtain ⟨p, w₁, ready, puts, kept, _⟩ := renderings_kept_iff iterates run
  rw [ready] at prepared
  obtain ⟨first, rest, list, firstFile, others⟩ :=
    List.map_eq_cons_iff.mp (Option.some.inj prepared)
  obtain ⟨second, none, rfl, secondFile, empty⟩ := List.map_eq_cons_iff.mp others
  obtain rfl := List.map_eq_nil_iff.mp empty
  obtain ⟨firstName, firstFile⟩ := Prod.mk.inj firstFile
  obtain ⟨secondName, secondFile⟩ := Prod.mk.inj secondFile
  -- Where a file goes and with which text can be read off from its path and its rendering.
  have place {symbol : Symbol} {path text : String} {place : Location × String}
      (file : ((p.naming.output? .struct symbol).map fun o =>
        (p.path o, (p.render (p.sees o)).toOption)) = some (path, some text))
      (put : p.Puts w₁.files .struct symbol place) :
      w₁.files.locate path = .ok place.1 ∧ place.2 = text := by
    obtain ⟨o, isFile, admits, rendered⟩ := put
    rw [isFile, Option.map_some, rendered] at file
    cases file
    exact ⟨admits.located, rfl⟩
  have isFirst : first ∈ p.model.ofKind .struct := by simp [list]
  have isSecond : second ∈ p.model.ofKind .struct := by simp [list]
  obtain ⟨place₁, put₁⟩ := puts first isFirst
  obtain ⟨place₂, put₂⟩ := puts second isSecond
  obtain ⟨located₁, text₁⟩ := place firstFile put₁
  obtain ⟨located₂, text₂⟩ := place secondFile put₂
  have clash : p.Clash w₁.files .struct first second := by
    refine ⟨place₁, place₂, put₁, put₂, Except.ok.inj (located₁.symm.trans located₂), ?_⟩
    rw [text₁, text₂]
    decide
  refine ⟨run, ran.2, p, w₁, ready, by simp [list, firstName, secondName],
    ⟨first, isFirst, second, isSecond, clash⟩, fun all => ?_⟩
  exact kept.mp all first isFirst second isSecond clash

end TemplateBackend

end IdlGen
