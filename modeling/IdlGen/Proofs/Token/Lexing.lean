import IdlGen.Proofs.Token.Shapes
import IdlGen.Token.Reader
import Mathlib.Data.List.Forall2

/-!
# Lexing

At each place of a text the first alternative that matches decides on the lexeme that starts there.
This cuts the text into lexemes, up to its end or to the first place where nothing matches, and
nothing of it is lost. Tokens are the lexemes that are no layout. Where a token stands, and what its
documentation is, can be read off the lexemes before it.
-/

namespace IdlGen

/-- A class of lexemes and their pattern. -/
structure Alternative where
  kind : LexemeKind
  pattern : Pattern

/-- The class of the lexeme in front, by the first alternative that matches, and the text behind
it. -/
def Alternative.choose? (alternatives : List Alternative) (cs : List Char) :
    Option (LexemeKind × List Char) :=
  alternatives.findSome? fun a => (a.pattern.first? cs).map (a.kind, ·)

inductive Language where
  | definitions | specs
deriving DecidableEq, Repr

namespace Language

def rules : Language → LexRules
  | definitions => .idl
  | specs => .spec

/-- What separates tokens in both languages. -/
def layout : List Alternative :=
  [⟨.blank, .blanks⟩, ⟨.docComment, .docComment⟩, ⟨.blockComment, .blockComment⟩,
   ⟨.lineComment, .lineComment⟩]

/-- The alternatives of a language, in order of precedence. -/
def alternatives : Language → List Alternative
  | definitions => layout ++
    [⟨.token .double, .double⟩, ⟨.token .integer, .integer⟩, ⟨.token .string, .quoted '"'⟩,
     ⟨.token .char, .quoted '\''⟩, ⟨.token .word, .dottedName⟩,
     ⟨.token .punctuation, .char (['\x7b', '\x7d', '(', ')', '<', '>', '[', ']', ',', ';', ':',
      '=', '*'].contains ·)⟩]
  | specs => layout ++
    [⟨.token .string, .quoted '"'⟩,
     ⟨.token .word, .oneOrMore (.char LexRules.isSpecWordChar)⟩,
     ⟨.token .punctuation, .char (['\x7b', '\x7d', '[', ']', ',', ':'].contains ·)⟩]

/-- Each rule of a language has the class of its alternative, and reads what that reads. -/
theorem rules_read (lang : Language) :
    List.Forall₂ (fun a r => a.kind = r.kind ∧ a.pattern.Reads r.shape) lang.alternatives
      lang.rules := by
  have layout_reads : List.Forall₂ (fun a r => a.kind = r.kind ∧ a.pattern.Reads r.shape) layout
      LexRules.layout :=
    .cons ⟨rfl, Pattern.oneOrMore_reads _⟩ <| .cons ⟨rfl, Pattern.docComment_reads⟩ <|
      .cons ⟨rfl, Pattern.blockComment_reads⟩ <| .cons ⟨rfl, Pattern.lineComment_reads⟩ .nil
  cases lang with
  | definitions =>
      refine List.rel_append layout_reads ?_
      exact .cons ⟨rfl, Pattern.double_reads⟩ <| .cons ⟨rfl, Pattern.integer_reads⟩ <|
        .cons ⟨rfl, Pattern.quoted_reads (by decide)⟩ <|
        .cons ⟨rfl, Pattern.quoted_reads (by decide)⟩ <|
        .cons ⟨rfl, Pattern.dottedName_reads⟩ <| .cons ⟨rfl, Pattern.mark_reads _⟩ .nil
  | specs =>
      refine List.rel_append layout_reads ?_
      exact .cons ⟨rfl, Pattern.quoted_reads (by decide)⟩ <|
        .cons ⟨rfl, Pattern.oneOrMore_reads _⟩ <| .cons ⟨rfl, Pattern.mark_reads _⟩ .nil

/-- The rules and the alternatives choose alike. -/
theorem choose?_eq (lang : Language) (cs : List Char) :
    Alternative.choose? lang.alternatives cs =
      (lang.rules.first? cs).map fun found => (found.1, cs.drop (found.2 + 1)) := by
  have agree := lang.rules_read
  generalize lang.alternatives = alternatives, lang.rules = rules at agree
  unfold Alternative.choose? LexRules.first?
  induction agree with
  | nil => rfl
  | @cons a r alternatives rules here _ ih =>
      obtain ⟨kind, reads⟩ := here
      rw [List.findSome?_cons, List.findSome?_cons, reads, ih, kind]
      cases r.shape cs with
      | zero => rfl
      | succ n => rfl

end Language

/-- The text that lexemes spell. -/
def Lexeme.spell (lexemes : List Lexeme) : List Char := lexemes.flatMap (·.text)

@[simp, grind =] theorem Lexeme.spell_cons (l : Lexeme) (lexemes : List Lexeme) :
    Lexeme.spell (l :: lexemes) = l.text ++ Lexeme.spell lexemes := rfl

@[simp, grind =] theorem Lexeme.spell_append (front back : List Lexeme) :
    Lexeme.spell (front ++ back) = Lexeme.spell front ++ Lexeme.spell back :=
  List.flatMap_append

namespace Language

/-- The text in front is cut into lexemes: where each of them starts, the first alternative that
matches reads it and no more. -/
inductive Cut (lang : Language) : List Char → List Lexeme → List Char → Prop
  | stop (rest : List Char) : Cut lang rest [] rest
  | next {l : Lexeme} {lexemes : List Lexeme} {cs rest : List Char} (nonempty : l.text ≠ [])
      (chosen : Alternative.choose? lang.alternatives (l.text ++ cs) = some (l.kind, cs))
      (more : Cut lang cs lexemes rest) : Cut lang (l.text ++ cs) (l :: lexemes) rest

variable {lang : Language}

/-- No character is lost. -/
theorem Cut.spell_append {cs rest : List Char} {lexemes : List Lexeme}
    (cut : lang.Cut cs lexemes rest) : cs = Lexeme.spell lexemes ++ rest := by
  induction cut with
  | stop rest => rfl
  | next _ _ _ ih =>
      rw [Lexeme.spell_cons, List.append_assoc, ← ih]

/-- Each lexeme has the class of one of the alternatives. -/
theorem Cut.kind_mem {cs rest : List Char} {lexemes : List Lexeme}
    (cut : lang.Cut cs lexemes rest) {l : Lexeme} (member : l ∈ lexemes) :
    ∃ a ∈ lang.alternatives, l.kind = a.kind := by
  induction cut with
  | stop rest => exact absurd member List.not_mem_nil
  | next _ chosen _ ih =>
      obtain rfl | member := List.mem_cons.1 member
      · obtain ⟨a, listed, reads⟩ := List.exists_of_findSome?_eq_some chosen
        obtain ⟨_, _, found⟩ := Option.map_eq_some_iff.1 reads
        exact ⟨a, listed, (congrArg Prod.fst found).symm⟩
      · exact ih member

/-- The end of a text is no lexeme of it. -/
theorem Cut.kind_ne_eof {cs rest : List Char} {lexemes : List Lexeme}
    (cut : lang.Cut cs lexemes rest) {l : Lexeme} (member : l ∈ lexemes) :
    l.kind ≠ .token .eof := by
  obtain ⟨a, listed, kind⟩ := cut.kind_mem member
  have others : ∀ a ∈ lang.alternatives, a.kind ≠ .token .eof := by
    cases lang <;> simp [alternatives, layout]
  exact kind ▸ others a listed

theorem Cut.nonempty {cs rest : List Char} {lexemes : List Lexeme}
    (cut : lang.Cut cs lexemes rest) {l : Lexeme} (member : l ∈ lexemes) : l.text ≠ [] := by
  induction cut with
  | stop rest => exact absurd member List.not_mem_nil
  | next nonempty _ _ ih =>
      obtain rfl | member := List.mem_cons.1 member
      · exact nonempty
      · exact ih member

/-- The lexeme behind some others is read off the text behind theirs. -/
theorem Cut.chosen {cs rest : List Char} {front back : List Lexeme} {l : Lexeme}
    (cut : lang.Cut cs (front ++ l :: back) rest) :
    ∃ more, cs = Lexeme.spell front ++ (l.text ++ more) ∧
      Alternative.choose? lang.alternatives (l.text ++ more) = some (l.kind, more) := by
  induction front generalizing cs with
  | nil =>
      cases cut with
      | next _ chosen _ => exact ⟨_, rfl, chosen⟩
  | cons x front ih =>
      cases cut with
      | next _ _ more =>
          obtain ⟨more, split, chosen⟩ := ih more
          refine ⟨more, ?_, chosen⟩
          rw [split, Lexeme.spell_cons, List.append_assoc]

/-- A scan cuts the text in front, and stops only where no alternative matches. -/
theorem scan_cut (lang : Language) (cs : List Char) :
    lang.Cut cs (lang.rules.scan cs).1 (lang.rules.scan cs).2 ∧
      ((lang.rules.scan cs).2 ≠ [] → lang.rules.first? (lang.rules.scan cs).2 = none) := by
  fun_induction LexRules.scan lang.rules cs with
  | case1 => exact ⟨.stop [], fun nonempty => absurd rfl nonempty⟩
  | case2 c cs nothing => exact ⟨.stop (c :: cs), fun _ => nothing⟩
  | case3 c cs kind n found lexemes rest scanned ih =>
      rw [scanned] at ih
      have split : c :: cs = (c :: cs.take n) ++ cs.drop n := by
        rw [List.cons_append, List.take_append_drop]
      have chosen : Alternative.choose? lang.alternatives ((c :: cs.take n) ++ cs.drop n) =
          some (kind, cs.drop n) := by
        rw [← split, lang.choose?_eq, found]
        rfl
      refine ⟨?_, ih.2⟩
      rw [split]
      exact Cut.next (l := ⟨kind, c :: cs.take n⟩) (List.cons_ne_nil _ _) chosen ih.1

/-- Where nothing matches, the text up to the next match is what is refused. -/
theorem unmatched_append (lang : Language) (cs : List Char) :
    ∃ more, cs = lang.rules.unmatched cs ++ more ∧
      (more ≠ [] → (Alternative.choose? lang.alternatives more).isSome) ∧
      ∀ i < (lang.rules.unmatched cs).length,
        Alternative.choose? lang.alternatives (cs.drop i) = none := by
  induction cs with
  | nil => exact ⟨[], rfl, fun nonempty => absurd rfl nonempty, by simp [LexRules.unmatched]⟩
  | cons c cs ih =>
      unfold LexRules.unmatched
      split
      · next found =>
          refine ⟨c :: cs, rfl, fun _ => ?_, by simp⟩
          rw [lang.choose?_eq, Option.isSome_map]
          exact found
      · next missing =>
          obtain ⟨more, split, found, unread⟩ := ih
          refine ⟨more, congrArg (c :: ·) split, found, fun i bound => ?_⟩
          cases i with
          | zero =>
              rw [List.drop_zero, lang.choose?_eq, Option.not_isSome_iff_eq_none.1 missing]
              rfl
          | succ i => exact unread i (Nat.lt_of_succ_lt_succ bound)

end Language

/-- The place behind a piece of text at the start: one line for each line feed, and one column for
each character since the last of them. -/
def Position.behind (before : List Char) : Position :=
  ⟨1 + before.count '\n', 1 + (before.reverse.takeWhile (· ≠ '\n')).length⟩

theorem Position.behind_concat (before : List Char) (c : Char) :
    Position.behind (before ++ [c]) = (Position.behind before).step c := by
  by_cases feed : c = '\n'
  · simp [Position.behind, Position.step, feed, Nat.add_assoc]
  · simp [Position.behind, Position.step, feed, Nat.add_comm]

@[simp, grind =] theorem Position.behind_append (before cs : List Char) :
    Position.behind (before ++ cs) = (Position.behind before).after cs := by
  induction cs generalizing before with
  | nil => simp [Position.after]
  | cons c cs ih =>
      rw [List.append_cons, ih, Position.behind_concat]
      rfl

/-- Layout is dropped, all else is a token. -/
def Lexeme.isToken (l : Lexeme) : Bool :=
  match l.kind with
  | .token _ => true
  | _ => false

/-- The documentation pending behind lexemes: that of the last documentation comment since the last
token. -/
def Docs.behind (front : List Lexeme) : Docs :=
  ((front.reverse.takeWhile fun l => !l.isToken).find? fun l => l.kind = .docComment).bind
    fun l => Docs.ofComment l.text

/-- The token that a lexeme stands for, by the lexemes before it. -/
def Lexeme.token? (front : List Lexeme) (l : Lexeme) : Option Token :=
  match l.kind with
  | .token kind =>
      some ⟨kind, String.ofList l.text, .behind (Lexeme.spell front), .behind front⟩
  | _ => none

/-- The tokens of a list of lexemes. -/
def Lexeme.tokens (lexemes : List Lexeme) : List Token :=
  lexemes.zipIdx.filterMap fun entry => entry.1.token? (lexemes.take entry.2)

@[simp] theorem Docs.behind_concat_token {front : List Lexeme} {l : Lexeme} (token : l.isToken) :
    Docs.behind (front ++ [l]) = none := by
  simp [Docs.behind, token]

@[simp]
theorem Docs.behind_concat_docs {front : List Lexeme} {l : Lexeme} (kind : l.kind = .docComment) :
    Docs.behind (front ++ [l]) = Docs.ofComment l.text := by
  simp [Docs.behind, Lexeme.isToken, kind]

theorem Docs.behind_concat_layout {front : List Lexeme} {l : Lexeme} (layout : l.isToken = false)
    (other : l.kind ≠ .docComment) : Docs.behind (front ++ [l]) = Docs.behind front := by
  simp [Docs.behind, layout, other]

/-- Behind any lexemes at the start, the running place and the pending documentation are those that
these lexemes determine. -/
@[simp] theorem Token.ofLexemes_behind (front lexemes : List Lexeme) :
    Token.ofLexemes (.behind (Lexeme.spell front)) (.behind front) lexemes =
      ((lexemes.zipIdx front.length).filterMap fun entry =>
        entry.1.token? ((front ++ lexemes).take entry.2),
      .behind (Lexeme.spell (front ++ lexemes))) := by
  induction lexemes generalizing front with
  | nil => simp [Token.ofLexemes]
  | cons l lexemes ih =>
      have ahead := ih (front ++ [l])
      have place : Position.behind (Lexeme.spell (front ++ [l])) =
          (Position.behind (Lexeme.spell front)).after l.text := by
        rw [Lexeme.spell_append, Position.behind_append]
        simp [Lexeme.spell]
      rw [place, List.append_assoc, List.length_append, List.length_singleton] at ahead
      rw [List.zipIdx_cons, List.filterMap_cons, List.take_left, Token.ofLexemes, Lexeme.token?]
      cases kind : l.kind with
      | docComment =>
          rw [Docs.behind_concat_docs kind] at ahead
          exact ahead
      | token kind' =>
          rw [Docs.behind_concat_token (by simp [Lexeme.isToken, kind])] at ahead
          simp only [ahead]
          rfl
      | blank | blockComment | lineComment =>
          rw [Docs.behind_concat_layout (by simp [Lexeme.isToken, kind]) (by simp [kind])] at ahead
          exact ahead

/-- The tokens of a list of lexemes, and the place where it ends. -/
@[simp] theorem Token.ofLexemes_eq (lexemes : List Lexeme) :
    Token.ofLexemes .start none lexemes =
      (Lexeme.tokens lexemes, .behind (Lexeme.spell lexemes)) :=
  Token.ofLexemes_behind [] lexemes

theorem Lexeme.kind_of_mem_tokens {lexemes : List Lexeme} {t : Token}
    (member : t ∈ Lexeme.tokens lexemes) : ∃ l ∈ lexemes, l.kind = .token t.kind := by
  obtain ⟨entry, listed, token⟩ := List.mem_filterMap.1 member
  refine ⟨entry.1, List.fst_mem_of_mem_zipIdx listed, ?_⟩
  unfold Lexeme.token? at token
  split at token
  · next kind =>
      cases token
      exact kind
  · cases token

namespace Language

variable (lang : Language)

/-- The lexemes of a text and what is left of it decide on the answer. -/
theorem tokenizeFile_eq (file text : String) :
    tokenizeFile lang.rules file text =
      if (lang.rules.scan text.toList).2 = [] then
        .ok ⟨Lexeme.tokens (lang.rules.scan text.toList).1,
          .behind (Lexeme.spell (lang.rules.scan text.toList).1)⟩
      else
        .error (.parse file (.behind (Lexeme.spell (lang.rules.scan text.toList).1))
          (.unlexable (String.ofList (lang.rules.unmatched (lang.rules.scan text.toList).2)))) := by
  unfold tokenizeFile tokenize
  generalize lang.rules.scan text.toList = scanned
  obtain ⟨lexemes, rest⟩ := scanned
  simp only [Token.ofLexemes_eq, List.isEmpty_iff]
  by_cases whole : rest = []
  · simp only [if_pos whole]
  · simp only [if_neg whole]

/-- No text is lost and no place is wrong. A text is cut where its first matching alternatives say;
on success its tokens are the lexemes that are no layout, each at its place and with the
documentation in front of it, and the end of the text follows; a failure is at the first place
where no alternative matches, and shows the text up to the next place where one does. -/
theorem lexing_lossless (file text : String) :
    (∀ ts, tokenizeFile lang.rules file text = .ok ts →
      ∃ lexemes, lang.Cut text.toList lexemes [] ∧ text.toList = Lexeme.spell lexemes ∧
        ts.toList = Lexeme.tokens lexemes ++ [⟨.eof, "", .behind text.toList, none⟩] ∧
        ∀ t ∈ Lexeme.tokens lexemes, t.kind ≠ .eof) ∧
    ∀ e, tokenizeFile lang.rules file text = .error e →
      ∃ lexemes piece more, lang.Cut text.toList lexemes (piece ++ more) ∧
        text.toList = Lexeme.spell lexemes ++ (piece ++ more) ∧ piece ≠ [] ∧
        (∀ i < piece.length,
          Alternative.choose? lang.alternatives ((piece ++ more).drop i) = none) ∧
        (more ≠ [] → (Alternative.choose? lang.alternatives more).isSome) ∧
        e = .parse file (.behind (Lexeme.spell lexemes)) (.unlexable (String.ofList piece)) := by
  obtain ⟨cut, stuck⟩ := lang.scan_cut text.toList
  rw [tokenizeFile_eq]
  generalize lang.rules.scan text.toList = scanned at cut stuck
  obtain ⟨lexemes, rest⟩ := scanned
  constructor
  · intro ts accepted
    by_cases whole : rest = []
    · rw [if_pos whole] at accepted
      subst whole
      cases accepted
      have spelled := cut.spell_append
      rw [List.append_nil] at spelled
      refine ⟨lexemes, cut, spelled, ?_, ?_⟩
      · rw [spelled]
        rfl
      · intro t member isEof
        obtain ⟨l, listed, kind⟩ := Lexeme.kind_of_mem_tokens member
        exact cut.kind_ne_eof listed (isEof ▸ kind)
    · rw [if_neg whole] at accepted
      cases accepted
  · intro e refused
    by_cases whole : rest = []
    · rw [if_pos whole] at refused
      cases refused
    · rw [if_neg whole] at refused
      cases refused
      obtain ⟨more, split, found, unread⟩ := lang.unmatched_append rest
      have nonempty : lang.rules.unmatched rest ≠ [] := by
        obtain ⟨c, cs, rfl⟩ := List.exists_cons_of_ne_nil whole
        rw [LexRules.unmatched, stuck whole]
        exact List.cons_ne_nil _ _
      refine ⟨lexemes, lang.rules.unmatched rest, more, ?_, ?_, nonempty, ?_, found, rfl⟩
      · exact split ▸ cut
      · exact split ▸ cut.spell_append
      · exact split ▸ unread

/-- A documentation comment at the end of a text documents nothing: the end of the text is a token
without documentation. -/
theorem end_undocumented :
    ¬ ∀ (ts : TokenList) (lexemes : List Lexeme),
      tokenizeFile definitions.rules "t" "/** d */" = .ok ts →
      definitions.Cut "/** d */".toList lexemes [] →
      ts.toList = Lexeme.tokens lexemes ++
        [⟨.eof, "", .behind "/** d */".toList, .behind lexemes⟩] := by
  intro documented
  have chosen : Alternative.choose? definitions.alternatives ("/** d */".toList ++ []) =
      some (.docComment, []) := by decide +kernel
  have cut : definitions.Cut "/** d */".toList [⟨.docComment, "/** d */".toList⟩] [] :=
    Cut.next (l := ⟨.docComment, "/** d */".toList⟩) (by decide) chosen (.stop [])
  have answer : tokenizeFile definitions.rules "t" "/** d */" = .ok ⟨[], ⟨1, 9⟩⟩ := by
    decide +kernel
  have pending := documented _ _ answer cut
  exact absurd pending (by decide +kernel)

end Language

end IdlGen
