import IdlGen.Literal.Spelling
import IdlGen.Proofs.Token.Layout

/-!
# String literals

A string literal spells a text: a backslash takes the letter after it, and every other character
stands for itself. Decoding gives the text that is spelled, if there is one. A token of a file that
is a string never ends within an escape, so it spells a text as soon as its escapes are known.
-/

namespace IdlGen.Spelling

variable {image : String} {letter c : Char} {body cs : List Char}

/-- The letters after a backslash and what they stand for. -/
def escapes : List (Char × Char) :=
  [('n', '\n'), ('r', '\r'), ('t', '\t'), ('f', '\x0c'), ('b', '\x08'), ('\\', '\\'), ('"', '"'),
   ('\'', '\'')]

/-- The characters between the marks of a literal spell a text. -/
inductive Spells : List Char → List Char → Prop
  | done : Spells [] []
  | plain {c : Char} {body text : List Char} (plain : c ≠ '\\') (more : Spells body text) :
      Spells (c :: body) (c :: text)
  | escape {letter c : Char} {body text : List Char} (known : (letter, c) ∈ escapes)
      (more : Spells body text) : Spells ('\\' :: letter :: body) (c :: text)

@[simp] theorem unescape?_eq_some_iff : unescape? letter = some c ↔ (letter, c) ∈ escapes := by
  constructor
  · intro found
    unfold unescape? at found
    split at found <;> cases found <;> decide
  · intro listed
    have all : ∀ entry ∈ escapes, unescape? entry.1 = some entry.2 := by decide
    exact all _ listed

@[simp] theorem map_cons_eq_ok_iff {answer : Except SpellingError (List Char)} {text : List Char} :
    answer.map (c :: ·) = .ok text ↔ ∃ more, answer = .ok more ∧ text = c :: more := by
  cases answer with
  | error e => simp [Except.map]
  | ok more => simp [Except.map, eq_comm]

/-- Decoding gives what is spelled. -/
@[simp] theorem decodeBody_eq_ok_iff {text : List Char} :
    decodeBody image body = .ok text ↔ Spells body text := by
  fun_induction decodeBody image body generalizing text with
  | case1 =>
      constructor
      · intro done
        cases done
        exact .done
      · intro spells
        cases spells
        rfl
  | case2 =>
      constructor
      · intro done
        cases done
      · intro spells
        cases spells with
        | plain plain _ => exact absurd rfl plain
  | case3 letter rest c found ih =>
      have known := unescape?_eq_some_iff.mp found
      rw [map_cons_eq_ok_iff]
      constructor
      · rintro ⟨more, decoded, rfl⟩
        exact .escape known (ih.mp decoded)
      · intro spells
        cases spells with
        | plain plain _ => exact absurd rfl plain
        | escape knownToo more =>
            have same := found.symm.trans (unescape?_eq_some_iff.mpr knownToo)
            cases same
            exact ⟨_, ih.mpr more, rfl⟩
  | case4 letter rest unknown =>
      constructor
      · intro done
        cases done
      · intro spells
        cases spells with
        | plain plain _ => exact absurd rfl plain
        | escape known _ =>
            have found := unescape?_eq_some_iff.mpr known
            rw [unknown] at found
            cases found
  | case5 c rest notLast notEscape ih =>
      rw [map_cons_eq_ok_iff]
      constructor
      · rintro ⟨more, decoded, rfl⟩
        refine .plain ?_ (ih.mp decoded)
        rintro rfl
        cases rest with
        | nil => exact notLast rfl rfl
        | cons letter rest => exact notEscape letter rest rfl rfl
      · intro spells
        cases spells with
        | plain _ more => exact ⟨_, ih.mpr more, rfl⟩
        | escape _ _ => exact absurd rfl (notEscape _ _ rfl)

/-- The literal has marks at both ends. -/
def Quoted (image : String) : Prop := ∃ body, image.toList = '"' :: (body ++ ['"'])

/-- The literal spells a text between its marks. -/
def Spelled (image text : String) : Prop :=
  ∃ body, image.toList = '"' :: (body ++ ['"']) ∧ Spells body text.toList

@[simp] theorem stripMarks_quoted (mark : Char) (body : List Char) :
    stripMarks mark (mark :: (body ++ [mark])) = body := by
  have ends : (mark :: (body ++ [mark])).getLast? = some mark := by
    rw [← List.cons_append, List.getLast?_concat]
  simp [stripMarks, ends]

theorem decodeString_eq_ok_iff {text : String} (quoted : Quoted image) :
    decodeString image = .ok text ↔ Spelled image text := by
  obtain ⟨body, same⟩ := quoted
  rw [decodeString, same, stripMarks_quoted]
  constructor
  · intro decoded
    cases inside : decodeBody image body with
    | error e =>
        rw [inside] at decoded
        cases decoded
    | ok cs =>
        rw [inside] at decoded
        cases decoded
        refine ⟨body, same, ?_⟩
        rw [String.toList_ofList]
        exact decodeBody_eq_ok_iff.mp inside
  · rintro ⟨bodyToo, sameToo, spells⟩
    have unique : bodyToo = body :=
      List.append_cancel_right (List.cons.inj (sameToo.symm.trans same)).2
    rw [unique] at spells
    rw [decodeBody_eq_ok_iff.mpr spells]
    exact congrArg Except.ok String.ofList_toList

theorem Spelled.decode {text : String} (spelled : Spelled image text) :
    decodeString image = .ok text := by
  have quoted : Quoted image := spelled.imp fun body inside => inside.1
  exact (decodeString_eq_ok_iff quoted).mpr spelled

/-- Whether each backslash takes one of the letters that stand for something. -/
def isSupported : List Char → Bool
  | '\\' :: letter :: rest => (escapes.map Prod.fst).contains letter && isSupported rest
  | _ :: rest => isSupported rest
  | [] => true

/-- What can stand between the marks of a token. A backslash takes the character after it along,
which can be the mark but no line feed. -/
inductive Body (mark : Char) : List Char → Prop
  | done : Body mark []
  | plain {c : Char} {body : List Char} (plain : c ≠ mark ∧ c ≠ '\\' ∧ c ≠ '\n')
      (more : Body mark body) : Body mark (c :: body)
  | escape {c : Char} {body : List Char} (proper : c ≠ '\n') (more : Body mark body) :
      Body mark ('\\' :: c :: body)

/-- A text that is closed at its end, and not before, has nothing else before its end. -/
theorem body_of_closing? {mark : Char} (closed : Shape.closing? mark cs = some cs.length) :
    ∃ body, cs = body ++ [mark] ∧ Body mark body := by
  generalize size : cs.length = n at closed
  fun_induction Shape.closing? mark cs generalizing n with
  | case1 | case3 | case4 | case5 => cases closed
  | case2 rest =>
      cases closed
      have nothing : rest = [] := List.length_eq_zero_iff.mp (Nat.succ.inj size)
      exact ⟨[], by rw [nothing]; rfl, .done⟩
  | case6 d cs proper other _ ih =>
      obtain ⟨k, found, rfl⟩ := Option.map_eq_some_iff.mp closed
      obtain ⟨body, rfl, inside⟩ := ih k (by simpa using size) found
      exact ⟨'\\' :: d :: body, rfl, .escape proper inside⟩
  | case7 c cs other proper plain ih =>
      obtain ⟨k, found, rfl⟩ := Option.map_eq_some_iff.mp closed
      obtain ⟨body, rfl, inside⟩ := ih k (by simpa using size) found
      exact ⟨c :: body, rfl, .plain ⟨other, plain, proper⟩ inside⟩

/-- What stands between the marks spells a text if its escapes are known. -/
theorem Body.exists_spells {mark : Char} (inside : Body mark body)
    (supported : isSupported (body ++ [mark])) : ∃ text, Spells body text := by
  induction inside with
  | done => exact ⟨[], .done⟩
  | @plain c body plain _ ih =>
      rw [isSupported.eq_def] at supported
      obtain ⟨text, spelled⟩ := ih (by simpa [plain] using supported)
      exact ⟨c :: text, .plain plain.2.1 spelled⟩
  | escape _ _ ih =>
      rw [List.cons_append, List.cons_append, isSupported, Bool.and_eq_true,
        List.contains_iff_mem] at supported
      obtain ⟨⟨letter, c⟩, known, rfl⟩ := List.mem_map.mp supported.1
      obtain ⟨text, spelled⟩ := ih supported.2
      exact ⟨c :: text, .escape known spelled⟩

/-- A string token has marks at both ends. -/
theorem closing?_of_stands {lang : Language} {piece : List Char}
    (stands : lang.Stands .string piece) :
    ∃ cs, piece = '"' :: cs ∧ Shape.closing? '"' cs = some cs.length := by
  have reads : (Pattern.quoted '"').first? piece = some [] := by
    obtain ⟨a, listed, found⟩ := List.exists_of_findSome?_eq_some stands.2
    obtain ⟨_, reads, same⟩ := Option.map_eq_some_iff.mp found
    obtain ⟨isString, rfl⟩ := Prod.mk.inj same
    have only : ∀ a ∈ lang.alternatives, a.kind = .token .string → a.pattern = .quoted '"' := by
      cases lang <;> simp [Language.alternatives, Language.layout]
    rwa [only a listed isString] at reads
  obtain ⟨c, cs, rfl⟩ := List.exists_cons_of_ne_nil stands.1
  cases Language.eq_mark_of_quoted reads
  refine ⟨cs, rfl, ?_⟩
  rw [Pattern.quoted, Pattern.first?_seq_char_cons, Pattern.first?_closing (by decide)] at reads
  obtain ⟨n, closed, whole⟩ := Option.map_eq_some_iff.mp reads
  have bound := (Shape.closing?_append closed []).1
  have size : cs.length ≤ n := List.drop_eq_nil_iff.mp whole
  rw [closed, Nat.le_antisymm bound size]

/-- A string token has marks at both ends, and spells a text if its escapes are known. -/
theorem spelled_of_stands {lang : Language} (stands : lang.Stands .string image.toList) :
    Quoted image ∧ (isSupported image.toList → ∃ text, Spelled image text) := by
  obtain ⟨cs, same, closed⟩ := closing?_of_stands stands
  obtain ⟨body, rfl, inside⟩ := body_of_closing? closed
  refine ⟨⟨body, same⟩, fun supported => ?_⟩
  have known : isSupported (body ++ ['"']) := by
    rw [same, isSupported.eq_def] at supported
    simpa using supported
  obtain ⟨text, spelled⟩ := inside.exists_spells known
  exact ⟨String.ofList text, body, same, by rwa [String.toList_ofList]⟩

end IdlGen.Spelling
