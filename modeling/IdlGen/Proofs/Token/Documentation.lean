import IdlGen.Proofs.Token.Comments
import Mathlib.Data.List.DropRight

/-!
# The lines of documentation

A documentation comment is usually written with its marks on lines of their own and a star before
each line of text. Text that is laid out so comes back as it was, whatever it starts with: only the
star and one blank behind it are taken off a line. What no comment can bring back are blanks at the
end of a line and blank lines at either end of the text.
-/

namespace IdlGen

namespace Text

variable {cs : List Char}

theorem trimBack_eq_self (visible : ∀ c ∈ cs.getLast?, ¬ isBlank c) : trimBack cs = cs := by
  refine List.rdropWhile_eq_self_iff.mpr fun nonempty => ?_
  exact visible _ (List.getLast?_eq_some_getLast nonempty)

/-- A text that was trimmed does not end in a blank. -/
theorem visible_of_mem_getLast?_trimBack {c : Char} (last : c ∈ (trimBack cs).getLast?) :
    ¬ isBlank c := by
  have nonempty : trimBack cs ≠ [] := by
    rintro empty
    simp [empty] at last
  rw [List.getLast?_eq_some_getLast nonempty] at last
  obtain rfl := Option.some.inj last
  exact List.rdropWhile_last_not isBlank cs nonempty

end Text

namespace Docs

@[simp] theorem splitLines.go_cons {c : Char} (other : c ≠ '\n') (before rest : List Char) :
    splitLines.go before (c :: rest) = splitLines.go (c :: before) rest := by
  rw [splitLines.go]
  exact other

@[simp]
theorem splitLines.go_append {line : List Char} (oneLine : '\n' ∉ line) (before rest : List Char) :
    splitLines.go before (line ++ rest) = splitLines.go (line.reverse ++ before) rest := by
  induction line generalizing before with
  | nil => rfl
  | cons c line ih =>
      rw [List.mem_cons, not_or] at oneLine
      rw [List.cons_append, splitLines.go_cons (Ne.symm oneLine.1), ih oneLine.2, List.reverse_cons,
        List.append_assoc, List.singleton_append]

@[simp] theorem splitLines.close_reverse {line : List Char} (plain : '\r' ∉ line.getLast?) :
    splitLines.close line.reverse = line := by
  unfold splitLines.close
  split
  · rename_i rest reversed
    refine absurd ?_ plain
    rw [← List.head?_reverse, reversed]
    rfl
  · exact line.reverse_reverse

/-- Lines that are ended by line feeds, and one more, are the lines of the text they make up. -/
theorem splitLines_flatMap {lines : List (List Char)} {last : List Char}
    (oneLine : ∀ line ∈ lines, '\n' ∉ line) (plain : ∀ line ∈ lines, '\r' ∉ line.getLast?)
    (lastLine : '\n' ∉ last) (nonempty : last ≠ []) :
    splitLines (lines.flatMap (· ++ ['\n']) ++ last) = lines ++ [last] := by
  unfold splitLines
  induction lines with
  | nil =>
      have ended := splitLines.go_append lastLine [] []
      rw [List.append_nil, List.append_nil] at ended
      rw [List.flatMap_nil, List.nil_append, ended, splitLines.go, if_neg (by simpa using nonempty),
        List.reverse_reverse, List.nil_append]
  | cons line lines ih =>
      rw [List.forall_mem_cons] at oneLine plain
      have cut : splitLines.go [] (line ++ '\n' :: (lines.flatMap (· ++ ['\n']) ++ last)) =
          line :: splitLines.go [] (lines.flatMap (· ++ ['\n']) ++ last) := by
        rw [splitLines.go_append oneLine.1, List.append_nil, splitLines.go,
          splitLines.close_reverse plain.1]
      rw [List.flatMap_cons, List.append_assoc, List.append_assoc, List.singleton_append, cut,
        ih oneLine.2 plain.2, List.cons_append]

theorem dropClose_eq_self {cs : List Char} (unmarked : ¬ ['*', '/'] <:+ cs) :
    dropClose cs = cs := by
  unfold dropClose
  split
  · rename_i rest reversed
    refine absurd ⟨rest.reverse, ?_⟩ unmarked
    rw [← cs.reverse_reverse, reversed]
    simp
  · rfl

/-- Behind a star and a blank stands the text of a line. -/
theorem lineText_star {line : List Char} (visible : ∀ c ∈ line.getLast?, ¬ Text.isBlank c)
    (unmarked : ¬ ['*', '/'] <:+: line) : lineText (' ' :: '*' :: ' ' :: line) = line := by
  cases line with
  | nil => decide
  | cons c line =>
      have trimmed : Text.trimBoth (' ' :: '*' :: ' ' :: c :: line) = '*' :: ' ' :: c :: line := by
        have front : Text.trimFront (' ' :: '*' :: ' ' :: c :: line) =
            '*' :: ' ' :: c :: line := rfl
        rw [Text.trimBoth, front]
        exact Text.trimBack_eq_self (by simpa using visible)
      have open_ : ¬ ['*', '/'] <:+ ' ' :: c :: line := by
        intro marked
        obtain same | inside := List.suffix_cons_iff.mp marked
        · cases same
        · exact unmarked inside.isInfix
      have body : dropClose (dropStars (dropOpen ('*' :: ' ' :: c :: line))) = ' ' :: c :: line :=
        dropClose_eq_self open_
      simp only [lineText, trimmed, body]
      exact Text.trimBack_eq_self visible

/-- A comment with its marks on lines of their own and a star before each line of text. -/
def comment (lines : List String) : List Char :=
  ['/', '*', '*'] ++ (lines.flatMap fun line => '\n' :: ' ' :: '*' :: ' ' :: line.toList) ++
    ['\n', ' ', '*', '/']

/-- Lines that a comment can bring back: none of them ends in a blank, and neither the first nor the
last of them is blank. -/
structure Trimmed (lines : List String) : Prop where
  nonempty : lines ≠ []
  visible : ∀ line ∈ lines, ∀ c ∈ line.toList.getLast?, ¬ Text.isBlank c
  first : ∀ line ∈ lines.head?, ¬ Text.allBlank line.toList
  last : ∀ line ∈ lines.getLast?, ¬ Text.allBlank line.toList

/-- Lines that can stand in a comment. -/
def Writable (lines : List String) : Prop :=
  ∀ line ∈ lines, '\n' ∉ line.toList ∧ ¬ ['*', '/'] <:+: line.toList

variable {lines : List String}

/-- The lines of a comment are its text and its marks. -/
theorem comment_eq_flatMap (lines : List String) :
    comment lines =
      ((['/', '*', '*'] :: lines.map fun line => ' ' :: '*' :: ' ' :: line.toList).flatMap
        (· ++ ['\n'])) ++ [' ', '*', '/'] := by
  have moved : ∀ texts : List (List Char), texts.flatMap ('\n' :: ·) ++ ['\n'] =
      '\n' :: texts.flatMap (· ++ ['\n']) := by
    intro texts
    induction texts with
    | nil => rfl
    | cons text texts ih => simp [ih]
  calc comment lines
      = ['/', '*', '*'] ++ ((lines.map fun line => ' ' :: '*' :: ' ' :: line.toList).flatMap
          ('\n' :: ·) ++ ['\n']) ++ [' ', '*', '/'] := by simp [comment, List.flatMap_map]
    _ = _ := by
        rw [moved, List.flatMap_cons]
        rfl

theorem splitLines_comment (trimmed : Trimmed lines) (writable : Writable lines) :
    splitLines (comment lines) =
      ['/', '*', '*'] :: (lines.map fun line => ' ' :: '*' :: ' ' :: line.toList) ++
        [[' ', '*', '/']] := by
  rw [comment_eq_flatMap]
  refine splitLines_flatMap ?_ ?_ (by decide) (by decide)
  · refine List.forall_mem_cons.mpr ⟨by decide, List.forall_mem_map.mpr fun line member => ?_⟩
    simpa using (writable line member).1
  · refine List.forall_mem_cons.mpr ⟨by decide, List.forall_mem_map.mpr fun line member => ?_⟩
    intro ends
    have last : '\r' ∈ line.toList.getLast? := by
      cases same : line.toList with
      | nil => simp [same] at ends
      | cons c cs => simpa [same] using ends
    exact trimmed.visible line member _ last (by decide)

theorem trimLines_eq_rdropWhile (texts : List (List Char)) :
    trimLines texts = (texts.dropWhile Text.allBlank).rdropWhile Text.allBlank := rfl

theorem trimLines_enclosed {texts : List (List Char)}
    (first : ∀ text ∈ texts.head?, ¬ Text.allBlank text)
    (last : ∀ text ∈ texts.getLast?, ¬ Text.allBlank text) :
    trimLines ([] :: texts ++ [[]]) = texts := by
  cases texts with
  | nil => rfl
  | cons text texts =>
      have front : ([] :: (text :: texts) ++ [[]]).dropWhile Text.allBlank =
          text :: texts ++ [[]] := by
        rw [List.cons_append, List.dropWhile_cons_of_pos rfl]
        exact List.dropWhile_cons_of_neg (first text rfl)
      rw [trimLines_eq_rdropWhile, front, List.rdropWhile_concat_pos _ _ _ rfl,
        List.rdropWhile_eq_self_iff]
      intro nonempty
      exact last _ (List.getLast?_eq_some_getLast nonempty)

theorem map_ofList_eq_iff {texts : List (List Char)} :
    texts.map String.ofList = lines ↔ texts = lines.map String.toList := by
  constructor
  · rintro rfl
    simp [Function.comp_def]
  · rintro rfl
    simp [Function.comp_def]

/-- The documentation of a comment is what is left of its lines. -/
theorem ofComment_eq_some_iff {image : List Char} :
    ofComment image = some lines ↔ ['/', '*', '*'] <+: image ∧ lines ≠ [] ∧
      trimLines ((splitLines image).map lineText) = lines.map String.toList := by
  unfold ofComment
  split
  · rename_i rest
    have opened : ['/', '*', '*'] <+: '/' :: '*' :: '*' :: rest := ⟨rest, rfl⟩
    split
    · rename_i empty
      rw [empty]
      simp [eq_comm]
    · rename_i nonempty
      rw [Option.some_inj, map_ofList_eq_iff]
      refine ⟨fun same => ⟨opened, ?_, same⟩, fun read => read.2.2⟩
      rintro rfl
      exact nonempty same
  · rename_i other
    refine ⟨fun impossible => (by cases impossible), fun read => ?_⟩
    obtain ⟨rest, rfl⟩ := read.1
    exact absurd rfl (other rest)

/-- A comment in the usual layout brings its lines back. -/
theorem ofComment_comment (trimmed : Trimmed lines) (writable : Writable lines) :
    ofComment (comment lines) = some lines := by
  have texts : (splitLines (comment lines)).map lineText =
      [] :: lines.map String.toList ++ [[]] := by
    rw [splitLines_comment trimmed writable, List.map_append, List.map_cons, List.map_map]
    have opening : lineText ['/', '*', '*'] = [] := by decide
    have closing : lineText [' ', '*', '/'] = [] := by decide
    rw [opening, List.map_singleton, closing]
    congr 2
    refine List.map_congr_left fun line member => ?_
    exact lineText_star (trimmed.visible line member) (writable line member).2
  have kept : trimLines ((splitLines (comment lines)).map lineText) = lines.map String.toList := by
    rw [texts]
    apply trimLines_enclosed
    · simpa using trimmed.first
    · simpa using trimmed.last
  exact ofComment_eq_some_iff.mpr ⟨⟨_, (List.append_assoc _ _ _).symm⟩, trimmed.nonempty, kept⟩

/-- Blank lines are dropped from both ends. -/
theorem trimLines_ends (texts : List (List Char)) :
    (∀ text ∈ (trimLines texts).head?, ¬ Text.allBlank text) ∧
      ∀ text ∈ (trimLines texts).getLast?, ¬ Text.allBlank text := by
  rw [trimLines_eq_rdropWhile]
  constructor
  · intro text first
    obtain ⟨blank, split⟩ := List.rdropWhile_prefix Text.allBlank (texts.dropWhile Text.allBlank)
    have head : (texts.dropWhile Text.allBlank).head? = some text := by
      rw [← split, List.head?_append_of_ne_nil _ (List.ne_nil_of_mem (List.mem_of_head? first))]
      exact first
    have filled := List.head?_dropWhile_not Text.allBlank texts
    rw [head] at filled
    exact Bool.eq_false_iff.mp filled
  · intro text last
    have nonempty := List.ne_nil_of_mem (List.mem_of_getLast? last)
    rw [List.getLast?_eq_some_getLast nonempty] at last
    obtain rfl := Option.some.inj last
    exact List.rdropWhile_last_not _ _ nonempty

theorem mem_of_mem_trimLines {texts : List (List Char)} {text : List Char}
    (member : text ∈ trimLines texts) : text ∈ texts := by
  apply (List.dropWhile_suffix Text.allBlank).subset
  exact (List.rdropWhile_prefix Text.allBlank _).subset member

/-- Whatever a comment looks like, the lines that are read from it are trimmed. -/
theorem trimmed_of_ofComment {image : List Char} (read : ofComment image = some lines) :
    Trimmed lines := by
  obtain ⟨_, nonempty, kept⟩ := ofComment_eq_some_iff.mp read
  have ends := trimLines_ends ((splitLines image).map lineText)
  rw [kept] at ends
  refine ⟨nonempty, fun line member c last => ?_, ?_, ?_⟩
  · have inside : line.toList ∈ trimLines ((splitLines image).map lineText) := by
      rw [kept]
      exact List.mem_map_of_mem member
    obtain ⟨text, _, same⟩ := List.mem_map.mp (mem_of_mem_trimLines inside)
    rw [← same] at last
    exact Text.visible_of_mem_getLast?_trimBack last
  · simpa using ends.1
  · simpa using ends.2

/-- An end mark does not reach over a line feed. -/
theorem not_infix_feed {cs rest : List Char} (unmarked : ¬ ['*', '/'] <:+: cs)
    (unmarkedRest : ¬ ['*', '/'] <:+: '\n' :: rest) : ¬ ['*', '/'] <:+: cs ++ '\n' :: rest := by
  intro marked
  obtain inside | inside | ⟨front, back, split, ends, starts⟩ := List.infix_append_iff.mp marked
  · exact unmarked inside
  · exact unmarkedRest inside
  · cases back with
    | nil =>
        rw [List.append_nil] at split
        exact unmarked (split ▸ ends).isInfix
    | cons c back =>
        have feed : '\n' ∈ front ++ c :: back := by
          rw [(List.cons_prefix_cons.mp starts).1]
          simp
        rw [← split] at feed
        exact absurd feed (by decide)

/-- What stands between the two marks of a comment. -/
def body (lines : List String) : List Char :=
  (lines.flatMap fun line => '\n' :: ' ' :: '*' :: ' ' :: line.toList) ++ ['\n', ' ']

theorem comment_append (lines : List String) (rest : List Char) :
    comment lines ++ rest = '/' :: '*' :: '*' :: (body lines ++ '*' :: '/' :: rest) := by
  simp [comment, body]

theorem exists_body_eq (lines : List String) : ∃ rest, body lines = '\n' :: rest := by
  cases lines with
  | nil => exact ⟨[' '], rfl⟩
  | cons line lines => exact ⟨_, rfl⟩

theorem not_infix_body (writable : Writable lines) : ¬ ['*', '/'] <:+: body lines := by
  induction lines with
  | nil => decide
  | cons line lines ih =>
      obtain ⟨here, writable⟩ := List.forall_mem_cons.mp writable
      obtain ⟨rest, feed⟩ := exists_body_eq lines
      have behind : ¬ ['*', '/'] <:+: line.toList ++ body lines := by
        rw [feed]
        exact not_infix_feed here.2 (feed ▸ ih writable)
      have unfolded : body (line :: lines) =
          '\n' :: ' ' :: '*' :: ' ' :: (line.toList ++ body lines) := by
        simp [body]
      rw [unfolded]
      simp [List.infix_cons_iff, List.cons_prefix_cons, behind]

@[simp] theorem beforeClose?_append {cs : List Char} (unmarked : ¬ ['*', '/'] <:+: cs)
    (rest : List Char) : Shape.beforeClose? (cs ++ '*' :: '/' :: rest) = some cs.length := by
  induction cs with
  | nil => rfl
  | cons c cs ih =>
      rw [List.infix_cons_iff, not_or] at unmarked
      rw [List.cons_append, Shape.beforeClose?, ih unmarked.2]
      · rfl
      · rintro more rfl slash
        cases cs with
        | nil => cases slash
        | cons d cs =>
            obtain ⟨rfl, _⟩ := List.cons.inj slash
            exact unmarked.1 ⟨cs, rfl⟩

theorem docComment_comment (writable : Writable lines) (rest : List Char) :
    Shape.docComment (comment lines ++ rest) = (comment lines).length := by
  have size : (comment lines).length = 3 + (body lines).length + 2 := by
    have whole := congrArg List.length (comment_append lines [])
    simp at whole
    omega
  rw [comment_append, Shape.docComment, beforeClose?_append (not_infix_body writable), size]

theorem first?_comment (lang : Language) (writable : Writable lines) (rest : List Char) :
    lang.rules.first? (comment lines ++ rest) = some (.docComment, (comment lines).length - 1) := by
  have visible : Shape.blanks (comment lines ++ rest) = 0 := rfl
  have length : Shape.docComment (comment lines ++ rest) = (comment lines).length - 1 + 1 :=
    docComment_comment writable rest
  cases lang with
  | definitions | specs =>
      refine LexRules.first?_cons_eq_some_iff.mpr (.inr ⟨visible, ?_⟩)
      exact LexRules.first?_cons_eq_some_iff.mpr (.inl ⟨rfl, length⟩)

/-- A comment in the usual layout is one lexeme, whatever follows it. -/
theorem scan_comment (lang : Language) (writable : Writable lines) (rest : List Char) :
    lang.rules.scan (comment lines ++ rest) =
      (⟨.docComment, comment lines⟩ :: (lang.rules.scan rest).1, (lang.rules.scan rest).2) := by
  have first := first?_comment lang writable rest
  obtain ⟨cs, opened⟩ : ∃ cs, comment lines = '/' :: cs := ⟨_, rfl⟩
  rw [opened] at first ⊢
  rw [List.cons_append, LexRules.scan]
  rw [List.cons_append] at first
  rw [first]
  simp

/-- Documentation in the usual layout is one comment in both languages, and its lines are read as
they were written. Of any other comment the lines are read trimmed. -/
theorem documentation_round_trip :
    (∀ lines, Trimmed lines → Writable lines →
      (∀ (lang : Language) rest, lang.rules.scan (comment lines ++ rest) =
        (⟨.docComment, comment lines⟩ :: (lang.rules.scan rest).1, (lang.rules.scan rest).2)) ∧
      ofComment (comment lines) = some lines) ∧
    ∀ image lines, ofComment image = some lines → Trimmed lines := by
  refine ⟨fun lines trimmed writable => ⟨?_, ?_⟩, fun image lines => trimmed_of_ofComment⟩
  · exact fun lang => scan_comment lang writable
  · exact ofComment_comment trimmed writable

/-- Lines that look like marks and like the layout of a comment, and a blank one among them. -/
theorem documentation_round_trip_marks :
    ∃ lines, Trimmed lines ∧ Writable lines ∧
      comment lines = "/**\n * **bold**\n *   /* b\n * \n * /\n */".toList ∧
      LexRules.spec.scan (comment lines ++ ['x']) =
        ([⟨.docComment, comment lines⟩, ⟨.token .word, ['x']⟩], []) ∧
      ofComment (comment lines) = some ["**bold**", "  /* b", "", "/"] := by
  have trimmed : Trimmed ["**bold**", "  /* b", "", "/"] := by
    refine ⟨by decide, ?_, ?_, ?_⟩
    · simp
      decide
    · simp
      decide
    · simp
      decide
  have writable : Writable ["**bold**", "  /* b", "", "/"] := by
    simp only [Writable, List.forall_mem_cons, List.not_mem_nil, false_implies, implies_true,
      and_true]
    decide +kernel
  obtain ⟨scanned, read⟩ := documentation_round_trip.1 _ trimmed writable
  refine ⟨_, trimmed, writable, by decide +kernel, ?_, read⟩
  have behind : LexRules.spec.scan ['x'] = ([⟨.token .word, ['x']⟩], []) := by decide +kernel
  rw [show LexRules.spec = Language.specs.rules from rfl] at behind ⊢
  rw [scanned, behind]

end Docs

end IdlGen
