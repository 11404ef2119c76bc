import IdlGen.Proofs.Token.Lexing
import IdlGen.Proofs.Token.Locality

/-!
# Layout between tokens

Whether a piece of text is a token, and of which class, does not depend on the layout around it. A
token that is not quoted has neither blanks nor quotes in it, and a quoted one ends with its mark,
so a blank behind a token ends it where it ended before. Nor does a blank make a comment out of it.
So tokens can be written one after the other with any blanks between them, and are read back.
-/

namespace IdlGen

/-- The blank characters one by one. -/
def Text.blanks : List Char :=
  [0x9, 0xA, 0xB, 0xC, 0xD, 0x20, 0x85, 0xA0, 0x1680, 0x2000, 0x2001, 0x2002, 0x2003, 0x2004,
   0x2005, 0x2006, 0x2007, 0x2008, 0x2009, 0x200A, 0x2028, 0x2029, 0x202F, 0x205F,
   0x3000].map Char.ofNat

theorem Text.mem_blanks {c : Char} (blank : Text.isBlank c) : c ∈ Text.blanks := by
  refine List.mem_map.mpr ⟨c.toNat, ?_, Char.ofNat_toNat c⟩
  simp only [isBlank, CodeRanges.covers, blankRanges, List.any_cons, List.any_nil, Bool.or_false,
    Bool.or_eq_true, Bool.and_eq_true, decide_eq_true_eq] at blank
  simp only [List.mem_cons, List.not_mem_nil, or_false]
  omega

/-- The text is over or goes on with a blank. -/
def Apart (cs : List Char) : Prop := ∀ c ∈ cs.head?, Text.isBlank c

/-- Two characters at the front of a text, the second of them no blank, do not reach over the end of
a piece of it. -/
theorem Apart.pair_prefix {x y : Char} {piece rest : List Char} (apart : Apart rest)
    (nonempty : piece ≠ []) (visible : ¬ Text.isBlank y) (front : [x, y] <+: piece ++ rest) :
    [x, y] <+: piece := by
  obtain ⟨c, piece, rfl⟩ := List.exists_cons_of_ne_nil nonempty
  obtain ⟨same, front⟩ := List.cons_prefix_cons.mp front
  refine List.cons_prefix_cons.mpr ⟨same, ?_⟩
  cases piece with
  | nil =>
      obtain ⟨more, split⟩ := front
      have blank := apart y (by rw [← show [y] ++ more = rest from split]; rfl)
      exact absurd blank visible
  | cons d piece =>
      obtain ⟨sameToo, _⟩ := List.cons_prefix_cons.mp front
      exact List.cons_prefix_cons.mpr ⟨sameToo, List.nil_prefix⟩

theorem Shape.closing?_escape {mark d : Char} {cs : List Char} (other : '\\' ≠ mark)
    (proper : d ≠ '\n') :
    Shape.closing? mark ('\\' :: d :: cs) = (Shape.closing? mark cs).map (· + 2) := by
  simp [Shape.closing?, other, proper]

theorem Shape.closing?_plain {mark c : Char} {cs : List Char} (other : c ≠ mark)
    (proper : c ≠ '\n') (plain : c ≠ '\\') :
    Shape.closing? mark (c :: cs) = (Shape.closing? mark cs).map (· + 1) := by
  simp [Shape.closing?.eq_def mark (c :: _), other, proper, plain]

/-- The closing mark stands in the text, and in every longer one. -/
theorem Shape.closing?_append {mark : Char} {cs : List Char} {n : Nat}
    (closed : Shape.closing? mark cs = some n) (rest : List Char) :
    n ≤ cs.length ∧ Shape.closing? mark (cs ++ rest) = some n := by
  fun_induction Shape.closing? mark cs generalizing n with
  | case1 | case3 | case4 | case5 => cases closed
  | case2 cs =>
      cases closed
      constructor
      · simp
      · simp [Shape.closing?.eq_def mark (mark :: _)]
  | case6 d cs proper other _ ih =>
      obtain ⟨k, found, rfl⟩ := Option.map_eq_some_iff.mp closed
      obtain ⟨bound, foundToo⟩ := ih found
      constructor
      · simpa using bound
      · rw [List.cons_append, List.cons_append, Shape.closing?_escape other proper, foundToo]
        rfl
  | case7 c cs other proper plain ih =>
      obtain ⟨k, found, rfl⟩ := Option.map_eq_some_iff.mp closed
      obtain ⟨bound, foundToo⟩ := ih found
      constructor
      · simpa using bound
      · rw [List.cons_append, Shape.closing?_plain other proper plain, foundToo]
        rfl

namespace Pattern

variable {mark : Char} {piece rest : List Char}

theorem greedy_quoted : (quoted mark).Greedy :=
  ⟨trivial, ⟨shrinks_quotedChar, trivial, trivial, trivial⟩, trivial⟩

/-- A quoted text ends with its mark, whatever stands behind it. -/
theorem first?_quoted_append (plain : mark ≠ '\\' ∧ mark ≠ '\n')
    (reads : (quoted mark).first? piece = some []) :
    (quoted mark).first? (piece ++ rest) = some rest := by
  rw [quoted] at reads ⊢
  cases piece with
  | nil => cases reads
  | cons c piece =>
      rw [List.cons_append]
      rw [first?_seq_char_cons, first?_closing plain] at reads ⊢
      split at reads
      · next marked =>
          obtain ⟨n, closed, whole⟩ := Option.map_eq_some_iff.mp reads
          obtain ⟨bound, closedToo⟩ := Shape.closing?_append closed rest
          have size : piece.length ≤ n := List.drop_eq_nil_iff.mp whole
          rw [if_pos marked, closedToo, Option.map_some, Nat.le_antisymm bound size, List.drop_left]
      · cases reads

end Pattern

namespace Language

variable {lang : Language} {piece more rest : List Char}

/-- The character of a comment's opening that is in no token but a quoted one. -/
def commentMark : Language → Char
  | definitions => '/'
  | specs => '*'

/-- What is in no token but a quoted one. -/
def foreign (lang : Language) : List Char := Text.blanks ++ ['"', '\'', lang.commentMark]

/-- The alternatives for tokens. -/
def tokens (lang : Language) : List Alternative := lang.alternatives.drop 4

theorem alternatives_eq (lang : Language) : lang.alternatives = layout ++ lang.tokens := by
  cases lang <;> rfl

/-- The pattern reads nothing foreign, and as much as it can. -/
def Solid (lang : Language) (p : Pattern) : Prop := p.Greedy ∧ p.Refuses (· ∈ lang.foreign)

theorem solid_double : definitions.Solid .double := by
  refine ⟨?_, by decide⟩
  simp [Pattern.double, Pattern.sign, Pattern.unsignedDouble, Pattern.digits, Pattern.exponent,
    Pattern.optional, Pattern.oneOrMore, Pattern.literal, Pattern.Greedy]

theorem solid_integer : definitions.Solid .integer := by
  refine ⟨?_, by decide⟩
  simp [Pattern.integer, Pattern.sign, Pattern.hexadecimal, Pattern.digits, Pattern.optional,
    Pattern.oneOrMore, Pattern.literal, Pattern.Greedy]

theorem solid_dottedName : definitions.Solid .dottedName := by
  refine ⟨?_, by decide⟩
  simp [Pattern.dottedName, Pattern.name, Pattern.Greedy, Pattern.shrinks_char.seq]

theorem solid_word : specs.Solid (.oneOrMore (.char LexRules.isSpecWordChar)) := by
  refine ⟨?_, by decide⟩
  simp [Pattern.oneOrMore, Pattern.Greedy]

/-- A token is a quoted text or has nothing foreign in it. -/
theorem tokens_solid (lang : Language) :
    ∀ a ∈ lang.tokens, (∃ kind, a.kind = .token kind) ∧
      ((∃ mark ∈ ['"', '\''], a.pattern = .quoted mark) ∨ lang.Solid a.pattern) := by
  cases lang with
  | definitions =>
      simp only [tokens, alternatives, layout, List.cons_append, List.nil_append,
        List.drop_succ_cons, List.drop_zero, List.forall_mem_cons]
      refine ⟨⟨⟨_, rfl⟩, .inr solid_double⟩, ⟨⟨_, rfl⟩, .inr solid_integer⟩,
        ⟨⟨_, rfl⟩, .inl ⟨'"', by decide, rfl⟩⟩, ⟨⟨_, rfl⟩, .inl ⟨'\'', by decide, rfl⟩⟩,
        ⟨⟨_, rfl⟩, .inr solid_dottedName⟩, ⟨⟨_, rfl⟩, .inr ⟨trivial, by decide⟩⟩, by simp⟩
  | specs =>
      simp only [tokens, alternatives, layout, List.cons_append, List.nil_append,
        List.drop_succ_cons, List.drop_zero, List.forall_mem_cons]
      refine ⟨⟨⟨_, rfl⟩, .inl ⟨'"', by decide, rfl⟩⟩, ⟨⟨_, rfl⟩, .inr solid_word⟩,
        ⟨⟨_, rfl⟩, .inr ⟨trivial, by decide⟩⟩, by simp⟩

theorem mem_foreign_of_isBlank {c : Char} (blank : Text.isBlank c) : c ∈ lang.foreign :=
  List.mem_append_left _ (Text.mem_blanks blank)

theorem stops_of_apart (apart : Apart rest) : ∀ c ∈ rest.head?, c ∈ lang.foreign :=
  fun c first => mem_foreign_of_isBlank (apart c first)

theorem plain_of_quote {mark : Char} (isMark : mark ∈ ['"', '\'']) :
    mark ≠ '\\' ∧ mark ≠ '\n' := by
  rcases List.mem_pair.mp isMark with rfl | rfl <;> decide

theorem eq_mark_of_quoted {mark c : Char} {cs left : List Char}
    (reads : (Pattern.quoted mark).first? (c :: cs) = some left) : c = mark := by
  by_contra other
  simp [Pattern.quoted, other] at reads

/-- A token does not depend on what stands behind it, up to a blank. -/
theorem first?_of_token {a : Alternative} (listed : a ∈ lang.tokens)
    (reads : a.pattern.first? (piece ++ more) = some more) (apart : Apart rest) :
    a.pattern.first? (piece ++ rest) = some rest := by
  rcases (lang.tokens_solid a listed).2 with ⟨mark, isMark, quoted⟩ | ⟨greedy, refuses⟩
  · rw [quoted] at reads ⊢
    have plain : mark ≠ '\\' ∧ mark ≠ '\n' := plain_of_quote isMark
    exact Pattern.first?_quoted_append plain (Pattern.first?_of_append Pattern.greedy_quoted reads)
  · rw [Pattern.first?_append greedy refuses (stops_of_apart apart),
      Pattern.first?_of_append greedy reads]
    rfl

/-- Where one token is read and another is not, that stays so before a blank. -/
theorem first?_eq_none_of_token {a b : Alternative} (listed : a ∈ lang.tokens)
    (fails : a.pattern.first? (piece ++ more) = none) (found : b ∈ lang.tokens)
    (reads : b.pattern.first? (piece ++ more) = some more) (nonempty : piece ≠ [])
    (apart : Apart rest) : a.pattern.first? (piece ++ rest) = none := by
  rcases (lang.tokens_solid a listed).2 with ⟨mark, isMark, quoted⟩ | ⟨greedy, refuses⟩
  · obtain ⟨c, piece, rfl⟩ := List.exists_cons_of_ne_nil nonempty
    rw [quoted] at fails ⊢
    have other : c ≠ mark := by
      rintro rfl
      rcases (lang.tokens_solid b found).2 with ⟨mark', _, quoted'⟩ | ⟨_, refuses⟩
      · rw [quoted'] at reads
        rw [← eq_mark_of_quoted reads, fails] at reads
        cases reads
      · apply Pattern.not_bad_of_first? refuses reads c List.mem_cons_self
        rcases List.mem_pair.mp isMark with rfl | rfl <;> simp [foreign]
    simp [Pattern.quoted, other]
  · rw [Pattern.first?_append greedy refuses (stops_of_apart apart),
      Pattern.first?_eq_none_of_append greedy fails]
    rfl

/-- A token does not begin with the opening of a comment. -/
theorem not_opening_of_token {a : Alternative} (listed : a ∈ lang.tokens)
    (reads : a.pattern.first? (piece ++ more) = some more) : ¬ ['/', '*'] <+: piece := by
  rintro ⟨inside, rfl⟩
  rcases (lang.tokens_solid a listed).2 with ⟨mark, isMark, quoted⟩ | ⟨_, refuses⟩
  · rw [quoted] at reads
    rw [← eq_mark_of_quoted reads] at isMark
    exact absurd isMark (by decide)
  · have good := Pattern.not_bad_of_first? refuses reads lang.commentMark
    apply good <;> cases lang <;> simp [commentMark, foreign]

/-- No layout begins with a visible character that opens no comment. -/
theorem choose?_layout_eq_none {cs : List Char} (visible : ∀ c ∈ cs.head?, ¬ Text.isBlank c)
    (opening : ¬ ['/', '*'] <+: cs) (slashes : ¬ ['/', '/'] <+: cs) (hash : ¬ ['#'] <+: cs) :
    Alternative.choose? layout cs = none := by
  have blanks : Pattern.blanks.first? cs = none := by
    cases cs with
    | nil => rfl
    | cons c cs => simp [Pattern.blanks, Pattern.oneOrMore, visible c rfl]
  have document : ¬ ['/', '*', '*'] <+: cs := by
    intro front
    exact opening (List.IsPrefix.trans (by decide) front)
  simp [Alternative.choose?, layout, blanks, Pattern.docComment, Pattern.blockComment,
    Pattern.lineComment, opening, slashes, hash, document]

theorem visible_of_choose?_layout {cs : List Char} (none : Alternative.choose? layout cs = none) :
    (∀ c ∈ cs.head?, ¬ Text.isBlank c) ∧ ¬ ['/', '/'] <+: cs ∧ ¬ ['#'] <+: cs := by
  have fails := List.findSome?_eq_none_iff.mp none
  simp only [layout, List.forall_mem_cons, Option.map_eq_none_iff] at fails
  obtain ⟨blanks, _, _, line, _⟩ := fails
  refine ⟨fun c first blank => ?_, fun front => ?_, fun front => ?_⟩
  · obtain ⟨rest, rfl⟩ := List.head?_eq_some_iff.mp first
    simp [Pattern.blanks, Pattern.oneOrMore, blank] at blanks
  · simp [Pattern.lineComment, front] at line
  · simp [Pattern.lineComment, front] at line

theorem choose?_eq_or (lang : Language) (cs : List Char) :
    Alternative.choose? lang.alternatives cs =
      (Alternative.choose? layout cs).or (Alternative.choose? lang.tokens cs) := by
  rw [alternatives_eq]
  exact List.findSome?_append

/-- No layout is in front where a token is. -/
theorem choose?_layout_of_token {kind : TokenKind} {cs left : List Char}
    (chosen : Alternative.choose? lang.alternatives cs = some (.token kind, left)) :
    Alternative.choose? layout cs = none ∧
      Alternative.choose? lang.tokens cs = some (.token kind, left) := by
  rw [choose?_eq_or] at chosen
  cases first : Alternative.choose? layout cs with
  | none =>
      rw [first, Option.none_or] at chosen
      exact ⟨rfl, chosen⟩
  | some found =>
      rw [first, Option.some_or] at chosen
      cases chosen
      obtain ⟨a, listed, reads⟩ := List.exists_of_findSome?_eq_some first
      obtain ⟨_, _, same⟩ := Option.map_eq_some_iff.mp reads
      have others : ∀ a ∈ layout, a.kind ≠ .token kind := by simp [layout]
      exact absurd (congrArg Prod.fst same) (others a listed)

/-- A piece of text that is read as a token is read as that token wherever a blank or nothing
follows it. -/
theorem choose?_apart {kind : TokenKind} (nonempty : piece ≠ [])
    (chosen : Alternative.choose? lang.alternatives (piece ++ more) = some (.token kind, more))
    (apart : Apart rest) :
    Alternative.choose? lang.alternatives (piece ++ rest) = some (.token kind, rest) := by
  obtain ⟨bare, chosen⟩ := choose?_layout_of_token chosen
  obtain ⟨before, a, after, tokens, found, fails⟩ := List.findSome?_eq_some_iff.mp chosen
  obtain ⟨_, reads, same⟩ := Option.map_eq_some_iff.mp found
  obtain ⟨isKind, rfl⟩ := Prod.mk.inj same
  have listed : a ∈ lang.tokens := by simp [tokens]
  have bareToo : Alternative.choose? layout (piece ++ rest) = none := by
    obtain ⟨visible, slashes, hash⟩ := visible_of_choose?_layout bare
    have notBlank : ¬ Text.isBlank '/' ∧ ¬ Text.isBlank '*' := by decide
    obtain ⟨c, inside, rfl⟩ := List.exists_cons_of_ne_nil nonempty
    apply choose?_layout_eq_none
    · exact visible
    · intro front
      exact not_opening_of_token listed reads (apart.pair_prefix nonempty notBlank.2 front)
    · intro front
      have inside := apart.pair_prefix nonempty notBlank.1 front
      exact slashes (inside.trans (List.prefix_append _ _))
    · intro front
      exact hash (List.cons_prefix_cons.mpr ⟨(List.cons_prefix_cons.mp front).1, List.nil_prefix⟩)
  rw [choose?_eq_or, bareToo, Option.none_or]
  refine List.findSome?_eq_some_iff.mpr ⟨before, a, after, tokens, ?_, fun b earlier => ?_⟩
  · rw [first?_of_token listed reads apart, ← isKind]
    rfl
  · have fails := Option.map_eq_none_iff.mp (fails b earlier)
    have listedToo : b ∈ lang.tokens := by simp [tokens, earlier]
    rw [first?_eq_none_of_token listedToo fails listed reads nonempty apart]
    rfl

/-- The text is one token of its class. -/
def Stands (lang : Language) (kind : TokenKind) (piece : List Char) : Prop :=
  piece ≠ [] ∧ Alternative.choose? lang.alternatives piece = some (.token kind, [])

/-- Pieces of text in a row, with blanks before, between and behind them. -/
inductive Spaced : List (List Char) → List Char → Prop
  | done : Spaced [] []
  | blank {pieces : List (List Char)} {c : Char} {cs : List Char} (blank : Text.isBlank c)
      (more : Spaced pieces cs) : Spaced pieces (c :: cs)
  | piece {piece : List Char} {pieces : List (List Char)} {cs : List Char} (apart : Apart cs)
      (more : Spaced pieces cs) : Spaced (piece :: pieces) (piece ++ cs)

theorem Stands.choose? {kind : TokenKind} (stands : lang.Stands kind piece) (apart : Apart rest) :
    Alternative.choose? lang.alternatives (piece ++ rest) = some (.token kind, rest) := by
  apply choose?_apart stands.1 _ apart
  · exact []
  · rw [List.append_nil]
    exact stands.2

theorem Stands.visible {kind : TokenKind} (stands : lang.Stands kind piece) :
    ∀ c ∈ piece.head?, ¬ Text.isBlank c :=
  (visible_of_choose?_layout (choose?_layout_of_token stands.2).1).1

@[simp] theorem apart_nil : Apart [] := fun _ none => by cases none

theorem Spaced.dropBlanks {pieces : List (List Char)} {cs : List Char} (spaced : Spaced pieces cs)
    (stand : ∀ p ∈ pieces, ∃ kind, lang.Stands kind p) :
    Spaced pieces (cs.dropWhile Text.isBlank) := by
  induction spaced with
  | done => exact .done
  | blank blank _ ih =>
      rw [List.dropWhile_cons_of_pos blank]
      exact ih stand
  | @piece p pieces cs apart more _ =>
      obtain ⟨kind, stands⟩ := stand p List.mem_cons_self
      have kept : (p ++ cs).dropWhile Text.isBlank = p ++ cs := by
        obtain ⟨c, inside, rfl⟩ := List.exists_cons_of_ne_nil stands.1
        exact List.dropWhile_cons_of_neg (stands.visible c rfl)
      rw [kept]
      exact .piece apart more

/-- Blanks in front are one lexeme. -/
theorem choose?_blank {c : Char} {cs : List Char} (blank : Text.isBlank c) :
    Alternative.choose? lang.alternatives (c :: cs) =
      some (.blank, cs.dropWhile Text.isBlank) := by
  have first : Alternative.choose? layout (c :: cs) = some (.blank, cs.dropWhile Text.isBlank) := by
    simp [Alternative.choose?, layout, Pattern.blanks, Pattern.oneOrMore, blank]
  rw [choose?_eq_or, first, Option.some_or]

end Language

/-- The class and the text of a lexeme that is a token. -/
def Lexeme.reading? (l : Lexeme) : Option (TokenKind × String) :=
  match l.kind with
  | .token kind => some (kind, String.ofList l.text)
  | _ => none

/-- A token without its place and its documentation. -/
def Token.reading (t : Token) : TokenKind × String := (t.kind, t.text)

@[simp] theorem Lexeme.map_reading_tokens (lexemes : List Lexeme) :
    (Lexeme.tokens lexemes).map Token.reading = lexemes.filterMap Lexeme.reading? := by
  have here : ∀ (front : List Lexeme) (l : Lexeme),
      (l.token? front).map Token.reading = l.reading? := by
    intro front l
    unfold Lexeme.token? Lexeme.reading?
    cases l.kind <;> rfl
  calc (Lexeme.tokens lexemes).map Token.reading
      = lexemes.zipIdx.filterMap (Lexeme.reading? ∘ Prod.fst) := by
        rw [Lexeme.tokens, List.map_filterMap]
        exact List.filterMap_congr fun entry _ => here _ _
    _ = lexemes.filterMap Lexeme.reading? := by rw [← List.filterMap_map, List.zipIdx_map_fst]

namespace Language

variable {lang : Language} {piece more rest : List Char}

/-- A text is cut in one way only. -/
theorem Cut.scan_eq {cs : List Char} {lexemes : List Lexeme} (cut : lang.Cut cs lexemes []) :
    lang.rules.scan cs = (lexemes, []) := by
  generalize ended : [] = left at cut
  induction cut with
  | stop rest => rw [← ended, LexRules.scan]
  | @next l lexemes cs rest nonempty chosen _ ih =>
      obtain ⟨kind, text⟩ := l
      obtain ⟨c, text, rfl⟩ := List.exists_cons_of_ne_nil nonempty
      rw [choose?_eq] at chosen
      obtain ⟨⟨_, n⟩, first, same⟩ := Option.map_eq_some_iff.mp chosen
      obtain ⟨rfl, behind⟩ := Prod.mk.inj same
      have behind : (text ++ cs).drop n = cs := behind
      have front : (text ++ cs).take n = text := by
        have whole := List.take_append_drop n (text ++ cs)
        rw [behind] at whole
        exact List.append_cancel_right whole
      have first : lang.rules.first? (c :: (text ++ cs)) = some (_, n) := first
      rw [List.cons_append, LexRules.scan, first]
      simp only [behind, front, ih ended]

/-- Tokens with blanks between them are cut where they begin and end. -/
theorem Spaced.cut {entries : List (TokenKind × String)} {cs : List Char}
    (spaced : Spaced (entries.map (·.2.toList)) cs)
    (stand : ∀ e ∈ entries, lang.Stands e.1 e.2.toList) :
    ∃ lexemes, lang.Cut cs lexemes [] ∧ lexemes.filterMap Lexeme.reading? = entries := by
  -- A run of blanks is one lexeme, so the induction is on the length of the text.
  induction size : cs.length using Nat.strongRecOn generalizing entries cs with
  | ind n ih =>
      generalize same : entries.map (·.2.toList) = pieces at spaced
      cases spaced with
      | done =>
          cases List.map_eq_nil_iff.mp same
          exact ⟨[], .stop [], rfl⟩
      | @blank _ c cs blank more =>
          have stands : ∀ p ∈ pieces, ∃ kind, lang.Stands kind p := by
            intro p member
            rw [← same] at member
            obtain ⟨e, listed, rfl⟩ := List.mem_map.mp member
            exact ⟨e.1, stand e listed⟩
          have shorter : (cs.dropWhile Text.isBlank).length < n := by
            have bound := (List.dropWhile_suffix (l := cs) Text.isBlank).length_le
            rw [List.length_cons] at size
            omega
          obtain ⟨lexemes, cut, readings⟩ :=
            ih _ shorter (same ▸ more.dropBlanks stands) stand rfl
          have split : c :: cs = (c :: cs.takeWhile Text.isBlank) ++ cs.dropWhile Text.isBlank := by
            rw [List.cons_append, List.takeWhile_append_dropWhile]
          refine ⟨⟨.blank, c :: cs.takeWhile Text.isBlank⟩ :: lexemes, ?_, readings⟩
          rw [split]
          refine Cut.next (l := ⟨.blank, c :: cs.takeWhile Text.isBlank⟩)
            (List.cons_ne_nil _ _) ?_ cut
          rw [← split]
          exact choose?_blank blank
      | @piece p pieces cs apart more =>
          obtain ⟨e, entries, rfl, rfl, rfl⟩ := List.map_eq_cons_iff.mp same
          have stands := stand e List.mem_cons_self
          have shorter : cs.length < n := by
            have positive := List.length_pos_of_ne_nil stands.1
            rw [List.length_append] at size
            omega
          obtain ⟨lexemes, cut, readings⟩ :=
            ih _ shorter more (fun e listed => stand e (List.mem_cons_of_mem _ listed)) rfl
          refine ⟨⟨.token e.1, e.2.toList⟩ :: lexemes, ?_, ?_⟩
          · exact Cut.next (l := ⟨.token e.1, e.2.toList⟩) stands.1 (stands.choose? apart) cut
          · simp [Lexeme.reading?, readings]

/-- Tokens with blanks between them are read back. -/
theorem tokenizeFile_spaced {entries : List (TokenKind × String)} {text : String}
    (spaced : Spaced (entries.map (·.2.toList)) text.toList)
    (stand : ∀ e ∈ entries, lang.Stands e.1 e.2.toList) (file : String) :
    ∃ ts, tokenizeFile lang.rules file text = .ok ts ∧ ts.tokens.map Token.reading = entries := by
  obtain ⟨lexemes, cut, readings⟩ := spaced.cut stand
  rw [tokenizeFile_eq, cut.scan_eq, if_pos rfl]
  exact ⟨_, rfl, (Lexeme.map_reading_tokens lexemes).trans readings⟩

/-- Each token of a text would be that token if it stood alone. -/
theorem stands_of_tokenizeFile {file text : String} {ts : TokenList}
    (accepted : tokenizeFile lang.rules file text = .ok ts) :
    ∀ t ∈ ts.tokens, lang.Stands t.kind t.text.toList := by
  intro t member
  obtain ⟨cut, _⟩ := lang.scan_cut text.toList
  rw [tokenizeFile_eq] at accepted
  generalize lang.rules.scan text.toList = scanned at cut accepted
  split at accepted
  · cases accepted
    have listed := List.mem_map_of_mem (f := Token.reading) member
    rw [Lexeme.map_reading_tokens] at listed
    obtain ⟨l, found, reading⟩ := List.mem_filterMap.mp listed
    obtain ⟨isKind, text⟩ : l.kind = .token t.kind ∧ String.ofList l.text = t.text := by
      unfold Lexeme.reading? at reading
      split at reading
      · next isKind =>
          obtain ⟨rfl, same⟩ := Prod.mk.inj (Option.some.inj reading)
          exact ⟨isKind, same⟩
      · cases reading
    obtain ⟨front, back, split⟩ := List.append_of_mem found
    rw [split] at cut
    obtain ⟨more, _, chosen⟩ := cut.chosen
    have nonempty : l.text ≠ [] := cut.nonempty (by simp)
    rw [← text, String.toList_ofList]
    refine ⟨nonempty, ?_⟩
    have alone := choose?_apart nonempty (isKind ▸ chosen) apart_nil
    rwa [List.append_nil] at alone
  · cases accepted

theorem spaced_intercalate (pieces : List (List Char)) :
    Spaced pieces ([' '].intercalate pieces) := by
  induction pieces with
  | nil => exact .done
  | cons p pieces ih =>
      cases pieces with
      | nil =>
          have alone : Spaced [p] (p ++ []) := .piece apart_nil .done
          rw [List.append_nil] at alone
          rwa [List.intercalate_singleton]
      | cons q pieces =>
          rw [List.intercalate_cons_cons, List.append_assoc]
          refine .piece ?_ (.blank (by decide) ih)
          intro c first
          cases first
          decide

/-- The layout of a text does not matter: with one space between any two tokens, and all else that
is no token left out, it has the same tokens. -/
theorem layout_immaterial (lang : Language) (file text : String) {ts : TokenList}
    (accepted : tokenizeFile lang.rules file text = .ok ts) :
    ∃ ts', tokenizeFile lang.rules file (" ".intercalate (ts.tokens.map (·.text))) = .ok ts' ∧
      ts'.toList.map (fun t => (t.kind, t.text)) = ts.toList.map (fun t => (t.kind, t.text)) := by
  have spaced : Spaced ((ts.tokens.map Token.reading).map (·.2.toList))
      (" ".intercalate (ts.tokens.map (·.text))).toList := by
    rw [String.toList_intercalate, List.map_map, List.map_map]
    exact spaced_intercalate _
  have stand : ∀ e ∈ ts.tokens.map Token.reading, lang.Stands e.1 e.2.toList := by
    intro e listed
    obtain ⟨t, member, rfl⟩ := List.mem_map.mp listed
    exact stands_of_tokenizeFile accepted t member
  obtain ⟨ts', acceptedToo, same⟩ := tokenizeFile_spaced spaced stand file
  refine ⟨ts', acceptedToo, ?_⟩
  rw [TokenList.toList, TokenList.toList, List.map_append, List.map_append]
  exact congrArg (· ++ _) same

/-- Numbers, names and quotes that stand side by side, or with only a comment between them. -/
theorem layout_immaterial_without_blanks :
    let ts : TokenList := ⟨[⟨.word, "a.b", ⟨1, 1⟩, none⟩, ⟨.double, "1e5", ⟨1, 11⟩, none⟩,
      ⟨.word, "x", ⟨1, 14⟩, none⟩, ⟨.char, "'q '", ⟨1, 15⟩, none⟩, ⟨.double, "+.5", ⟨2, 1⟩, none⟩,
      ⟨.integer, "-1", ⟨2, 4⟩, none⟩], ⟨2, 6⟩⟩
    tokenizeFile definitions.rules "t" "a.b/* x */1e5x'q '// y\n+.5-1" = .ok ts ∧
      ∃ ts', tokenizeFile definitions.rules "t" "a.b 1e5 x 'q ' +.5 -1" = .ok ts' ∧
        ts'.toList.map (fun t => (t.kind, t.text)) = ts.toList.map (fun t => (t.kind, t.text)) := by
  intro ts
  have accepted : tokenizeFile definitions.rules "t" "a.b/* x */1e5x'q '// y\n+.5-1" = .ok ts := by
    decide +kernel
  exact ⟨accepted, layout_immaterial definitions "t" _ accepted⟩

end Language

end IdlGen
