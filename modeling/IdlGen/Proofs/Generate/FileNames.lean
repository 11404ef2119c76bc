import IdlGen.Generate.Output
import IdlGen.Proofs.Files.Reading
import IdlGen.Proofs.Text.Case
import IdlGen.Token.Shape

/-!
# Names of files

The name of a declaration is converted for the name of its file, which keeps it made of letters,
digits and bars. So a file's name holds a slash only if the configuration brings one, and two
declarations have files of the same name just if their names are converted to the same one.
-/

namespace IdlGen

namespace Text

/-- Letters, digits and bars only. -/
def Wordy (cs : List Char) : Prop := ∀ c ∈ cs, Shape.isNameChar c = true

theorem toNat_lt_of_isNameChar {c : Char} (isName : Shape.isNameChar c = true) :
    c.toNat < 128 := by
  have below {last : Char} (le : c ≤ last) (small : last.toNat < 128) : c.toNat < 128 :=
    Nat.lt_of_le_of_lt (UInt32.le_iff_toNat_le.mp le) small
  simp only [Shape.isNameChar, Shape.isNameStart, Bool.or_eq_true, Bool.and_eq_true,
    decide_eq_true_eq] at isName
  rcases isName with ((⟨_, le⟩ | ⟨_, le⟩) | rfl) | ⟨_, le⟩
  · exact below le (by decide)
  · exact below le (by decide)
  · decide
  · exact below le (by decide)

/-- The run begins behind the characters of names, or sends them to such characters. -/
def CaseRun.KeepsNames (run : CaseRun) : Prop :=
  128 ≤ run.first ∨ ∀ n < 128, (run.image? n).all (fun m => Shape.isNameChar (Char.ofNat m)) = true

instance (run : CaseRun) : Decidable run.KeepsNames := inferInstanceAs (Decidable (_ ∨ _))

theorem CaseRun.KeepsNames.image {run : CaseRun} {n m : Nat} (keeps : run.KeepsNames)
    (image : run.image? n = some m) (small : n < 128) : Shape.isNameChar (Char.ofNat m) = true := by
  rcases keeps with wide | table
  · rw [image?_of_lt (Nat.lt_of_lt_of_le small wide)] at image
    cases image
  · have held := table n small
    rwa [image, Option.all_some] at held

/-- A character of names has such an image, if only wide characters have expansions. -/
theorem mapCase_wordy {expansions : List (Nat × List Nat)} {runs : List CaseRun} {c : Char}
    (wide : ∀ expansion ∈ expansions, 128 ≤ expansion.1) (keep : ∀ run ∈ runs, run.KeepsNames)
    (isName : Shape.isNameChar c = true) : Wordy (mapCase expansions runs c) := by
  have small : c.toNat < 128 := toNat_lt_of_isNameChar isName
  intro d member
  rw [mapCase_of_ascii wide small] at member
  obtain rfl := List.mem_singleton.mp member
  cases found : runs.findSome? (·.image? c.toNat) with
  | none => exact isName
  | some m =>
      obtain ⟨run, isRun, image⟩ := List.exists_of_findSome?_eq_some found
      exact (keep run isRun).image image small

theorem upperChar_wordy {c : Char} (isName : Shape.isNameChar c = true) : Wordy (upperChar c) :=
  mapCase_wordy (by decide +kernel) (by decide +kernel) isName

theorem lowerChar_wordy {c : Char} (isName : Shape.isNameChar c = true) : Wordy (lowerChar c) :=
  mapCase_wordy (by decide +kernel) (by decide +kernel) isName

end Text

namespace Text.Wordy

variable {cs ds : List Char}

theorem append (first : Wordy cs) (second : Wordy ds) : Wordy (cs ++ ds) := by
  intro c member
  exact (List.mem_append.mp member).elim (first c) (second c)

theorem split (wordy : Wordy cs) (mark : Char) : ∀ part ∈ Text.split mark cs, Wordy part := by
  induction cs with
  | nil =>
      intro part member
      obtain rfl := List.mem_singleton.mp member
      exact wordy
  | cons c cs ih =>
      obtain ⟨head, tail⟩ := List.forall_mem_cons.mp wordy
      intro part member
      by_cases same : c = mark
      · rw [same, Text.split_cons_mark] at member
        rcases List.mem_cons.mp member with rfl | member
        · exact fun _ none => absurd none List.not_mem_nil
        · exact ih tail part member
      · have nonempty : Text.split mark cs ≠ [] := Text.split_ne_nil cs
        obtain ⟨first, parts, front⟩ := List.exists_cons_of_ne_nil nonempty
        rw [Text.split_cons_of_ne same front] at member
        rw [front] at ih
        rcases List.mem_cons.mp member with rfl | member
        · exact List.forall_mem_cons.mpr ⟨head, ih tail first List.mem_cons_self⟩
        · exact ih tail part (List.mem_cons_of_mem _ member)

theorem splitSmall (wordy : Wordy cs) (armed : Bool) : Wordy (Naming.splitSmall armed cs) := by
  induction cs generalizing armed with
  | nil => exact wordy
  | cons c cs ih =>
      obtain ⟨head, tail⟩ := List.forall_mem_cons.mp wordy
      rw [Naming.splitSmall]
      split
      · exact List.forall_mem_cons.mpr ⟨rfl, List.forall_mem_cons.mpr ⟨head, ih tail _⟩⟩
      · exact List.forall_mem_cons.mpr ⟨head, ih tail _⟩

theorem splitCapitals (wordy : Wordy cs) (armed : Bool) :
    Wordy (Naming.splitCapitals armed cs) := by
  induction cs generalizing armed with
  | nil => exact wordy
  | cons c cs ih =>
      obtain ⟨head, tail⟩ := List.forall_mem_cons.mp wordy
      rw [Naming.splitCapitals]
      split
      · exact List.forall_mem_cons.mpr ⟨rfl, List.forall_mem_cons.mpr ⟨head, ih tail _⟩⟩
      · exact List.forall_mem_cons.mpr ⟨head, ih tail _⟩

theorem lowerAfter (wordy : Wordy cs) (before : List Char) : Wordy (Text.lowerAfter before cs) := by
  induction cs generalizing before with
  | nil => exact wordy
  | cons c cs ih =>
      obtain ⟨head, tail⟩ := List.forall_mem_cons.mp wordy
      have sigma : c ≠ 'Σ' := by
        rintro rfl
        exact absurd head (by decide)
      rw [Text.lowerAfter, if_neg sigma]
      exact (Text.lowerChar_wordy head).append (ih tail _)

theorem upperCamel {name : String} (wordy : Wordy name.toList) :
    Wordy (Naming.upperCamel name).toList := by
  intro c member
  rw [Naming.upperCamel, String.toList_join, List.mem_flatMap] at member
  obtain ⟨word, isWord, member⟩ := member
  obtain ⟨part, isPart, rfl⟩ := List.mem_map.mp isWord
  obtain ⟨chars, between, rfl⟩ := List.mem_map.mp isPart
  have wordy : Wordy chars := wordy.split '_' chars between
  unfold Naming.capitalize at member
  rw [String.toList_ofList] at member
  cases chars with
  | nil => exact absurd member List.not_mem_nil
  | cons first rest =>
      obtain ⟨head, tail⟩ := List.forall_mem_cons.mp wordy
      dsimp only at member
      rw [String.toList_ofList] at member
      exact (Text.upperChar_wordy head).append tail c member

theorem snake {name : String} (wordy : Wordy name.toList) : Wordy (Naming.snake name).toList := by
  rw [Naming.snake, Text.toLower, String.toList_ofList, String.toList_ofList]
  exact ((wordy.splitSmall _).splitCapitals _).lowerAfter _

theorem slash_notMem (wordy : Wordy cs) : '/' ∉ cs := by
  intro member
  exact absurd (wordy _ member) (by decide)

end Text.Wordy

namespace FileNaming

variable {n : FileNaming} {a b : String}

/-- The part of a file's name that comes from the declaration. -/
def convert (n : FileNaming) (name : String) : String :=
  if n.snakeCase then Naming.snake name else Naming.upperCamel name

theorem convert_wordy (wordy : Text.Wordy a.toList) : Text.Wordy (n.convert a).toList := by
  unfold convert
  split
  · exact wordy.snake
  · exact wordy.upperCamel

/-- The parts of a file's name that come from the configuration hold no slash. -/
structure Plain (n : FileNaming) : Prop where
  before : '/' ∉ n.before.toList
  after : '/' ∉ n.after.toList
  extension : '/' ∉ n.extension.toList

theorem slash_notMem_fileName (plain : n.Plain) (wordy : Text.Wordy a.toList) :
    '/' ∉ (n.fileName (n.baseName a)).toList := by
  have base : '/' ∉ (n.baseName a).toList := by
    change '/' ∉ (n.before ++ n.convert a ++ n.after).toList
    simp [plain.before, plain.after, (convert_wordy wordy).slash_notMem]
  unfold fileName
  split
  · exact base
  · simp [base, plain.extension]

/-- Files have the same name just if their declarations are converted to the same name. -/
@[simp] theorem fileName_eq_iff :
    n.fileName (n.baseName a) = n.fileName (n.baseName b) ↔ n.convert a = n.convert b := by
  have base : n.baseName a = n.baseName b ↔ n.convert a = n.convert b := by
    change n.before ++ n.convert a ++ n.after = n.before ++ n.convert b ++ n.after ↔ _
    simp [← String.toList_inj]
  rw [← base]
  unfold fileName
  split
  · rfl
  · simp [← String.toList_inj]

end FileNaming

end IdlGen
