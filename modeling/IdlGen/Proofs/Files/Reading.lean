import IdlGen.Files.FileTree
import IdlGen.Files.SourceRef
import IdlGen.Proofs.Model.Registry

/-!
# Which models a file tree can hold

A file that can be read has the last segment of its path as its name in the tree, however the path
is written. So the models that can be read from a tree are among those named by its text files and
its pages, and there are no more of them than nodes and pages.
-/

namespace IdlGen

namespace Text

variable {mark : Char} {part : List Char}

@[simp] theorem split_ne_nil (cs : List Char) : split mark cs ≠ [] := by
  cases cs with
  | nil => nofun
  | cons c cs =>
      rw [split]
      split
      · nofun
      · split <;> nofun

theorem split_cons_of_ne {c : Char} {cs part : List Char} {parts : List (List Char)} (h : c ≠ mark)
    (tail : split mark cs = part :: parts) : split mark (c :: cs) = (c :: part) :: parts := by
  rw [split, tail]
  exact if_neg h

@[simp]
theorem split_cons_mark {cs : List Char} : split mark (mark :: cs) = [] :: split mark cs := by
  rw [split]
  split
  · rename_i empty
    exact absurd empty (split_ne_nil cs)
  · rename_i tail
    rw [tail]
    exact if_pos rfl

@[simp] theorem split_of_notMem (h : mark ∉ part) : split mark part = [part] := by
  induction part with
  | nil => rfl
  | cons c cs ih =>
      obtain ⟨ne, rest⟩ := List.ne_and_not_mem_of_not_mem_cons h
      exact split_cons_of_ne ne.symm (ih rest)

/-- What stands after the last mark is the last part. -/
@[simp] theorem split_append (h : mark ∉ part) (front : List Char) :
    split mark (front ++ mark :: part) = split mark front ++ [part] := by
  induction front with
  | nil =>
      change split mark (mark :: part) = [] :: [part]
      rw [split_cons_mark, split_of_notMem h]
  | cons c cs ih =>
      by_cases same : c = mark
      · subst same
        rw [List.cons_append, split_cons_mark, split_cons_mark, ih]
        rfl
      · have nonempty : split mark cs ≠ [] := split_ne_nil cs
        obtain ⟨first, parts, tail⟩ := List.exists_cons_of_ne_nil nonempty
        rw [tail] at ih
        rw [List.cons_append, split_cons_of_ne same ih, split_cons_of_ne same tail]
        rfl

end Text

namespace Path

/-- The text of a path ends with `part`, and a slash stands right before that unless it is the whole
text. -/
inductive Ends : List Char → List Char → Prop
  | whole {part : List Char} (plain : '/' ∉ part) : Ends part part
  | after {part : List Char} (front : List Char) (plain : '/' ∉ part) :
      Ends (front ++ '/' :: part) part

variable {cs part : List Char} {path : String}

theorem exists_ends (cs : List Char) : ∃ part, Ends cs part := by
  induction cs with
  | nil => exact ⟨[], .whole List.not_mem_nil⟩
  | cons c cs ih =>
      obtain ⟨part, ends⟩ := ih
      cases ends with
      | whole plain =>
          by_cases slash : c = '/'
          · subst slash
            exact ⟨cs, .after [] plain⟩
          · exact ⟨c :: cs, .whole (List.not_mem_cons_of_ne_of_not_mem (Ne.symm slash) plain)⟩
      | after front plain => exact ⟨part, .after (c :: front) plain⟩

theorem Ends.plain (ends : Ends cs part) : '/' ∉ part := by
  cases ends <;> assumption

theorem Ends.split (ends : Ends cs part) : ∃ front, Text.split '/' cs = front ++ [part] := by
  cases ends with
  | whole plain => exact ⟨[], Text.split_of_notMem plain⟩
  | after front plain => exact ⟨_, Text.split_append plain front⟩

/-- The last segment is the text after the last slash, if there is any. -/
theorem Ends.segments (ends : Ends path.toList part) (nonempty : part ≠ []) :
    ∃ front, segments path = front ++ [String.ofList part] := by
  obtain ⟨front, parts⟩ := ends.split
  refine ⟨(front.filter (!·.isEmpty)).map String.ofList, ?_⟩
  have kept : [part].filter (!·.isEmpty) = [part] := by simp [nonempty]
  rw [Path.segments, parts, List.filter_append, kept, List.map_append]
  rfl

theorem Ends.endsWith_slash (ends : Ends path.toList []) (nonempty : path ≠ "") :
    Text.endsWith path "/" = true := by
  unfold Text.endsWith
  generalize same : path.toList = cs at ends
  cases ends with
  | whole => exact absurd (String.toList_eq_nil_iff.mp same) nonempty
  | after front => exact List.isSuffixOf_iff_suffix.mpr (List.suffix_append front _)

/-- A path that ends with a name has nothing to trim. -/
theorem trimEnd_append {p : List Char} (plain : '/' ∉ p) (nonempty : p ≠ []) (notDot : p ≠ ['.'])
    (rest : List Char) : trimEnd (p ++ rest) = p ++ rest := by
  match p with
  | [c] =>
      have slash : c ≠ '/' := fun h => plain (h ▸ List.mem_cons_self)
      have dot : c ≠ '.' := fun h => notDot (h ▸ rfl)
      simp [trimEnd, slash, dot]
  | c :: d :: p =>
      have first : c ≠ '/' := fun h => plain (h ▸ List.mem_cons_self)
      have second : d ≠ '/' := fun h => plain (h ▸ List.mem_cons_of_mem _ List.mem_cons_self)
      simp [trimEnd, first, second]

theorem lead_of_plain (plain : '/' ∉ part) (notDot : part ≠ ['.']) : lead part = 0 := by
  unfold lead
  split
  · simp at plain
  · exact absurd rfl notDot
  · simp at plain
  · rfl

theorem lead_le_one (cs : List Char) : lead cs ≤ 1 := by
  unfold lead
  split <;> decide

/-- From its end, a path reads its last part first, and then a slash if anything. -/
theorem Ends.fromEnd (ends : Ends cs part) (nonempty : part ≠ []) (notDot : part ≠ ['.']) :
    ∃ rest, fromEnd cs = part.reverse ++ rest ∧ rest.takeWhile (· ≠ '/') = [] := by
  have trimmed (rest : List Char) : trimEnd (part.reverse ++ rest) = part.reverse ++ rest :=
    trimEnd_append (by simpa using ends.plain) (by simpa using nonempty)
      (by simpa [List.reverse_eq_iff] using notDot) rest
  cases ends with
  | whole plain =>
      refine ⟨[], ?_, rfl⟩
      rw [Path.fromEnd, lead_of_plain plain notDot]
      exact (congrArg trimEnd (List.append_nil _).symm).trans (trimmed [])
  | after front plain =>
      cases front with
      | nil =>
          refine ⟨[], ?_, rfl⟩
          exact (congrArg trimEnd (List.append_nil _).symm).trans (trimmed [])
      | cons c front =>
          -- At most the first character is dropped, and the slash in front of the part stays.
          have dropped : ∃ kept,
              ((c :: front) ++ '/' :: part).drop (lead (c :: front ++ '/' :: part)) =
                kept ++ '/' :: part := by
            rcases Nat.le_one_iff_eq_zero_or_eq_one.mp (lead_le_one (c :: front ++ '/' :: part))
              with none | one
            · exact ⟨c :: front, by rw [none]; rfl⟩
            · exact ⟨front, by rw [one]; rfl⟩
          obtain ⟨kept, dropped⟩ := dropped
          refine ⟨'/' :: kept.reverse, ?_, rfl⟩
          rw [Path.fromEnd, dropped, List.reverse_append, List.reverse_cons, List.append_assoc]
          exact trimmed _

/-- The name of a file is the text after the last slash, unless that stands for a directory. -/
theorem Ends.fileName? (ends : Ends path.toList part) (nonempty : part ≠ [])
    (notDot : part ≠ ['.']) :
    fileName? path = if part = ['.', '.'] then none else some (String.ofList part) := by
  obtain ⟨rest, body, stop⟩ := ends.fromEnd nonempty notDot
  have segment : (Path.fromEnd path.toList).takeWhile (· ≠ '/') = part.reverse := by
    rw [body, List.takeWhile_append_of_pos, stop, List.append_nil]
    intro c member
    have : c ≠ '/' := fun same => ends.plain (same ▸ List.mem_reverse.mp member)
    simpa using this
  have up : part.reverse = ['.', '.'] ↔ part = ['.', '.'] := List.reverse_eq_iff
  rw [Path.fileName?, segment]
  simp [nonempty, up]

end Path

namespace FileTree

variable {t : FileTree} {loc : Location} {path text : String}

@[simp] theorem enter_eq_ok_iff : t.enter loc = .ok () ↔ t.node? loc = some .directory := by
  unfold enter
  split <;> simp_all

/-- A walk steps from a directory to where it ends. -/
theorem walk_append_eq_ok {front : List String} {last : String} {target : Location}
    (h : t.walk loc (front ++ [last]) = .ok target) :
    ∃ dir, t.node? dir = some .directory ∧ target = step dir last := by
  induction front generalizing loc with
  | nil =>
      obtain ⟨_, entered, h⟩ := bind_eq_ok h
      exact ⟨loc, enter_eq_ok_iff.mp entered, (Except.ok.inj h).symm⟩
  | cons segment front ih =>
      obtain ⟨_, _, h⟩ := bind_eq_ok h
      exact ih h

theorem step_of_name {dir : Location} {name : String} (dot : name ≠ ".") (up : name ≠ "..") :
    step dir name = name :: dir := by
  unfold step
  split
  · exact absurd rfl dot
  · exact absurd rfl up
  · rfl

/-- The last step to a file goes along the last segment of its path. -/
theorem exists_step_of_locate_file {content : Content} (located : t.locate path = .ok loc)
    (isFile : t.node? loc = some (.file content)) :
    ∃ part dir, Path.Ends path.toList part ∧ part ≠ [] ∧ part ≠ ['.'] ∧
      loc = step dir (String.ofList part) := by
  have notDirectory {dir : Location} (h : t.node? dir = some .directory) : loc ≠ step dir "." := by
    intro same
    rw [same] at isFile
    cases h.symm.trans isFile
  obtain ⟨_, allowed, located⟩ := bind_eq_ok located
  by_cases slash : Text.endsWith path "/" = true
  · rw [if_pos slash] at located
    obtain ⟨dir, isDir, same⟩ := walk_append_eq_ok located
    exact absurd same (notDirectory isDir)
  · rw [if_neg slash, List.append_nil] at located
    obtain ⟨part, ends⟩ := Path.exists_ends path.toList
    have nonempty : part ≠ [] := by
      rintro rfl
      refine slash (ends.endsWith_slash ?_)
      rintro rfl
      cases allowed
    obtain ⟨front, segments⟩ := ends.segments nonempty
    rw [segments] at located
    obtain ⟨dir, isDir, same⟩ := walk_append_eq_ok located
    refine ⟨part, dir, ends, nonempty, ?_, same⟩
    rintro rfl
    exact notDirectory isDir same

/-- A file has the last segment of its path as its name. -/
theorem head?_of_locate_file {content : Content} {name : String} (located : t.locate path = .ok loc)
    (isFile : t.node? loc = some (.file content)) (named : Path.fileName? path = some name) :
    loc.head? = some name := by
  obtain ⟨part, dir, ends, nonempty, notDot, rfl⟩ := exists_step_of_locate_file located isFile
  rw [ends.fileName? nonempty notDot] at named
  split at named
  · cases named
  · rename_i notUp
    rw [step_of_name (fun h => notDot (by simpa using congrArg String.toList h))
      fun h => notUp (by simpa using congrArg String.toList h)]
    exact named

theorem mem_nodes_of_node? {content : Content} (h : t.node? loc = some (.file content)) :
    (loc, .file content) ∈ t.nodes := by
  unfold node? at h
  split at h
  · cases h
  · obtain ⟨before, after, nodes, _⟩ := List.lookup_eq_some_iff.mp h
    exact nodes ▸ List.mem_append_cons_self

/-- Only files can be read. -/
theorem exists_of_read_eq_ok (h : t.read path = .ok text) :
    ∃ loc, t.locate path = .ok loc ∧ t.node? loc = some (.file (.text text)) := by
  obtain ⟨⟨loc, node⟩, found, h⟩ := bind_eq_ok h
  obtain ⟨loc', located, found⟩ := bind_eq_ok found
  cases there : t.node? loc' with
  | none => rw [there] at found; cases found
  | some node' =>
      rw [there] at found
      cases found
      match node, h with
      | .file (.text _), rfl => exact ⟨loc, located, there⟩

end FileTree

/-- The name of a definition file without the extension. -/
def SourceRef.stem (file : String) : String :=
  if Text.endsWith file definitionExtension then Text.dropEnd file definitionExtension.length
  else file

namespace FileTree

/-- The text behind a reference, if it can be read. -/
def text? (t : FileTree) : SourceRef → Option String
  | .nowhere => none
  | .file path => (t.read path).toOption
  | .url address => t.fetch? address

/-- The names that the text files of a tree give to models. -/
def fileModels (t : FileTree) : List String :=
  t.nodes.filterMap fun
    | (loc, .file (.text _)) => loc.head?.map SourceRef.stem
    | _ => none

/-- The names that the pages of a tree give to models. -/
def pageModels (t : FileTree) : List String :=
  t.pages.filterMap fun page => (SourceRef.url page.1).modelName?

/-- The names of the models that can be read from a tree. -/
def modelNames (t : FileTree) : List String := t.fileModels ++ t.pageModels

theorem length_modelNames_le (t : FileTree) :
    t.modelNames.length ≤ t.nodes.length + t.pages.length := by
  rw [modelNames, List.length_append]
  exact Nat.add_le_add (List.length_filterMap_le ..) (List.length_filterMap_le ..)

variable {t : FileTree} {path address text name : String} {source : SourceRef}

theorem mem_fileModels_of_read (h : t.read path = .ok text)
    (named : (SourceRef.file path).modelName? = some name) : name ∈ t.fileModels := by
  obtain ⟨loc, located, isFile⟩ := exists_of_read_eq_ok h
  obtain ⟨file, fileName, rfl⟩ := Option.map_eq_some_iff.mp named
  refine List.mem_filterMap.mpr ⟨_, mem_nodes_of_node? isFile, ?_⟩
  change loc.head?.map SourceRef.stem = _
  rw [head?_of_locate_file located isFile fileName]
  rfl

theorem mem_pageModels_of_fetch? (h : t.fetch? address = some text)
    (named : (SourceRef.url address).modelName? = some name) : name ∈ t.pageModels := by
  obtain ⟨before, after, pages, _⟩ := List.lookup_eq_some_iff.mp h
  exact List.mem_filterMap.mpr ⟨(address, text), pages ▸ List.mem_append_cons_self, named⟩

/-- A model that can be read is one that a text file or a page names. -/
theorem mem_modelNames_of_text? (h : t.text? source = some text)
    (named : source.modelName? = some name) : name ∈ t.modelNames := by
  cases source with
  | nowhere => cases h
  | file path =>
      exact List.mem_append_left _ (mem_fileModels_of_read (eq_ok_of_toOption h) named)
  | url address => exact List.mem_append_right _ (mem_pageModels_of_fetch? h named)

end FileTree

end IdlGen
