import IdlGen.Proofs.Load.Cycles
import IdlGen.Proofs.Load.Visits
import IdlGen.Proofs.Token.Lexing

/-!
# Where errors are

An error in a text names a file and a place. The place is one of those that the text of this file
has of its own: the start of a token, the end, or the start of what is no lexeme. It is the text
that the load was given, or that of a file or page which was read on the way, for an include in a
file whose load is still open.

A load that was opened for an include fails the load around it, and nothing is told in between. So
what the innermost load has told stands in the log of the whole call.
-/

namespace IdlGen

/-- The file and the place of an error in a text. -/
def SourceError.place? : SourceError → Option (String × Position)
  | parse file pos _ => some (file, pos)
  | model file pos _ => some (file, pos)
  | unreadable _ _ => none
  | fetch _ => none

theorem Lexeme.split_of_mem_tokens {lexemes : List Lexeme} {t : Token}
    (member : t ∈ Lexeme.tokens lexemes) :
    ∃ front l back, lexemes = front ++ l :: back ∧ l.isToken = true ∧
      t.pos = .behind (Lexeme.spell front) := by
  obtain ⟨entry, listed, token⟩ := List.mem_filterMap.1 member
  obtain ⟨bound, here⟩ := List.getElem?_eq_some_iff.1 (List.mem_zipIdx_iff_getElem?.1 listed)
  have split : lexemes = lexemes.take entry.2 ++ entry.1 :: lexemes.drop (entry.2 + 1) := by
    rw [← here, ← List.drop_eq_getElem_cons bound, List.take_append_drop]
  refine ⟨_, _, _, split, ?_⟩
  unfold Lexeme.token? at token
  split at token
  · next kind =>
      cases token
      exact ⟨by simp only [Lexeme.isToken, kind], rfl⟩
  · cases token

namespace Language

/-- The places of a text that an error can be at: the start of a token, the end of the text if it
can be cut into lexemes, and else the first place where no alternative matches. -/
inductive Marks (lang : Language) (text : List Char) : Position → Prop
  | token {front back : List Lexeme} {l : Lexeme} (cut : lang.Cut text (front ++ l :: back) [])
      (isToken : l.isToken = true) : Marks lang text (.behind (Lexeme.spell front))
  | stop {lexemes : List Lexeme} (cut : lang.Cut text lexemes []) :
      Marks lang text (.behind text)
  | stuck {lexemes : List Lexeme} {rest : List Char} (cut : lang.Cut text lexemes rest)
      (more : rest ≠ []) (unmatched : Alternative.choose? lang.alternatives rest = none) :
      Marks lang text (.behind (Lexeme.spell lexemes))

variable (lang : Language) {file text : String}

theorem marks_of_tokens {tokens : TokenList}
    (cut : tokenizeFile lang.rules file text = .ok tokens) {t : Token}
    (member : t ∈ tokens.eof :: tokens.tokens) : lang.Marks text.toList t.pos := by
  have scanned := (lang.scan_cut text.toList).1
  rw [tokenizeFile_eq] at cut
  split at cut
  · next whole =>
      cases cut
      rw [whole] at scanned
      rcases List.mem_cons.mp member with rfl | member
      · have spelled := scanned.spell_append
        rw [List.append_nil] at spelled
        change lang.Marks text.toList (.behind (Lexeme.spell _))
        rw [← spelled]
        exact .stop scanned
      · obtain ⟨front, l, back, split, isToken, pos⟩ := Lexeme.split_of_mem_tokens member
        rw [split] at scanned
        exact pos ▸ .token scanned isToken
  · cases cut

theorem marks_of_unlexed {e : SourceError}
    (failed : tokenizeFile lang.rules file text = .error e) {named : String} {pos : Position}
    (located : e.place? = some (named, pos)) : named = file ∧ lang.Marks text.toList pos := by
  obtain ⟨scanned, stuck⟩ := lang.scan_cut text.toList
  rw [tokenizeFile_eq] at failed
  split at failed
  · cases failed
  · next more =>
      cases failed
      cases located
      refine ⟨rfl, .stuck scanned more ?_⟩
      rw [choose?_eq, stuck more]
      rfl

end Language

open Idl LoadM

namespace Idl.Reads

variable {r : Reader} {origin : SourceRef} {load : Loader} {a b : Place}

/-- A file is read to its end from any place that is reached on the way. -/
theorem exec_document (reads : Reads r origin load a b) :
    (document r origin load a.model a.rest).exec a.state =
      (document r origin load b.model b.rest).exec b.state := by
  induction reads with
  | refl => rfl
  | tail _ step ih =>
      rw [ih]
      cases step with
      | intro read =>
          dsimp only
          rw [document, exec_bind_ok read]

/-- Up to any place of a file, other files are read once, and those that are included are loaded. -/
theorem complete (reads : Reads r origin load a b) (once : load.Once) (steady : load.Steady)
    (start : a.model.Building a.state.set) (included : Included a.model a.state.set) :
    Complete a.state b.state ∧ Included b.model b.state.set := by
  induction reads with
  | refl => exact ⟨.refl _, included⟩
  | tail front step ih =>
      cases step with
      | intro read =>
          have building := (Reads.building front steady start).1
          obtain ⟨before, included⟩ := ih
          obtain ⟨further, included⟩ := (declaration_visits once building.wf included).ok read
          exact ⟨before.trans further, included⟩

end Idl.Reads

namespace Load

/-- What can be read is loaded with its text, and this is told. -/
theorem exec_loadWith_text {load : Loader} {files : FileTree} {source : SourceRef}
    {name text : String} {σ : LoadState} (named : source.modelName? = some name)
    (content : files.text? source = some text) :
    (loadWith load files source).exec σ =
      (parseWith load name text source).exec { σ with log := σ.log ++ announces source } := by
  rw [loadWith, named]
  exact exec_bind_ok (exec_readSource_ok content)

end Load

namespace Load.Frame

variable {files : FileTree} {a b : Frame} {e : SourceError} {τ : LoadState}

theorem ReadsTo.log_prefix {place : Place} (reads : a.ReadsTo files place) (fresh : a.Fresh) :
    a.start.log <+: place.state.log := by
  obtain ⟨tokens, _, reads⟩ := reads
  obtain ⟨⟨_, visit, _⟩, _⟩ := reads.complete (loadInclude_once _) (loadInclude_steady _)
    fresh.building included_nil
  obtain ⟨events, log, _⟩ := visit.reads
  exact ⟨events, log.symm⟩

theorem Fresh.log_prefix (fresh : a.Fresh) (files : FileTree) :
    a.start.log <+: (a.run files).2.log := by
  obtain ⟨_, visit⟩ := (parseWith_opens (loadInclude_once _) (loadInclude_steady _) fresh.wf).begun
  obtain ⟨events, log, _⟩ := visit.reads
  exact ⟨events, log.symm⟩

namespace Opens

/-- A load that was opened fails the load around it, which abandons its model. -/
theorem run_error (opens : a.Opens files b) (fresh : a.Fresh)
    (failed : b.run files = (.error e, τ)) :
    a.run files = (.error e, ⟨τ.set.abandon a.name, τ.log⟩) := by
  cases opens with
  | @intro place source name text reads ahead named unknown content =>
      let told : LoadState := ⟨place.state.set, place.state.log ++ [.includes a.file source]⟩
      have wf : told.set.WellFormed := (reads.building fresh).1.wf
      have loaded : (loader files source).exec told = (.error e, τ) := by
        have opened : (loadWith (loader files) files source).exec told = (.error e, τ) :=
          (exec_loadWith_text named content).trans failed
        rw [exec_loader wf, exec_bind, opened]
      obtain ⟨tokens, cut, reads⟩ := reads
      obtain ⟨keyword, pathToken, rest, included, front, isWord, isInclude, isString, decoded,
        isSource⟩ := ahead
      obtain ⟨next, asked⟩ := exec_document_include ⟨a.file, tokens.eof⟩ place.model rest
        ⟨isWord, isInclude⟩ isString decoded (isSource ▸ named) unknown
      refine exec_parseWith_error fresh.unknown ?_
      calc (parseInto (loader files) { name := some a.name } a.file a.file a.text a.origin).exec
            a.opened
        _ = (document ⟨a.file, tokens.eof⟩ a.origin (loader files) { name := some a.name }
              tokens.tokens).exec a.opened := exec_lift_bind cut
        _ = (document ⟨a.file, tokens.eof⟩ a.origin (loader files) place.model
              place.rest).exec place.state := reads.exec_document
        _ = (loader files source >>= fun _ => next (loader files)).exec told := by
              rw [front, asked, ← isSource]
        _ = (.error e, τ) := by rw [exec_bind, loaded]

/-- The text of a load that was opened is read after the load around it has started. -/
theorem reading (opens : a.Opens files b) (fresh : a.Fresh) :
    files.text? b.origin = some b.text ∧
      ∃ events, b.start.log = a.start.log ++ events ∧ announces b.origin ⊆ events := by
  cases opens with
  | @intro place source name text reads _ _ _ content =>
      obtain ⟨events, log⟩ := reads.log_prefix fresh
      refine ⟨content, events ++ .includes a.file source :: announces source, ?_, ?_⟩
      · simp [← log]
      · exact fun event told => List.mem_append_right _ (List.mem_cons_of_mem _ told)

end Opens

namespace Chain

variable {last : Frame}

/-- The loads of a chain end with the same log. -/
theorem run_log (chain : a.Chain files e last) (fresh : a.Fresh) :
    last.Fresh ∧ a.start.log <+: last.start.log ∧
      (last.run files).2.log = (a.run files).2.log := by
  induction chain with
  | refl => exact ⟨fresh, List.prefix_rfl, rfl⟩
  | @tail b c _ step ih =>
      obtain ⟨opens, failed⟩ := step
      obtain ⟨outer, before, log⟩ := ih
      obtain ⟨_, events, started, _⟩ := opens.reading outer
      have ended := opens.run_error outer (τ := (c.run files).2) (Prod.ext failed rfl)
      refine ⟨opens.fresh outer, before.trans ⟨events, started.symm⟩, ?_⟩
      rw [← log, ended]

/-- Every load of a chain but the first one has a text that is read on the way. -/
theorem reading (chain : a.Chain files e last) (fresh : a.Fresh) :
    last = a ∨ files.text? last.origin = some last.text ∧
      ∃ events, (a.run files).2.log = a.start.log ++ events ∧ announces last.origin ⊆ events := by
  rcases chain.cases_tail with same | ⟨b, front, opens, _⟩
  · exact .inl same
  · obtain ⟨outer, ⟨before, start⟩, _⟩ := run_log front fresh
    obtain ⟨content, events, opened, read⟩ := opens.reading outer
    obtain ⟨inner, _, log⟩ := run_log chain fresh
    obtain ⟨further, told⟩ := inner.log_prefix files
    refine .inr ⟨content, before ++ events ++ further, ?_, fun event tells => ?_⟩
    · rw [← log, ← told, opened, ← start]
      simp only [List.append_assoc]
    · exact List.mem_append_left _ (List.mem_append_right _ (read tells))

end Chain

/-- An error in a text is from the last load that is open, and its place is one of the text of that
load. -/
theorem located_error {file : String} {pos : Position} (fresh : a.Fresh)
    (failed : (a.run files).1 = .error e) (located : e.place? = some (file, pos)) :
    ∃ last, a.Chain files e last ∧ last.file = file ∧
      Language.definitions.Marks last.text.toList pos := by
  refine failure_induction fresh failed fun a fresh fails ih => ?_
  cases fails with
  | unlexed failed =>
      obtain ⟨named, marks⟩ := Language.definitions.marks_of_unlexed failed located
      exact ⟨a, .refl, named.symm, marks⟩
  | unread failed =>
      rcases readSource_fails.error failed with ⟨_, _, rfl⟩ | ⟨_, rfl⟩
      · cases located
      · cases located
  | refused cut fault =>
      cases fault with
      | parse here =>
          cases located
          exact ⟨a, .refl, rfl, Language.definitions.marks_of_tokens cut here⟩
      | model here =>
          cases located
          exact ⟨a, .refl, rfl, Language.definitions.marks_of_tokens cut here⟩
  | nested opens failed =>
      obtain ⟨last, chain, isFile, marks⟩ := ih _ opens failed
      exact ⟨last, .head ⟨opens, failed⟩ chain, isFile, marks⟩

end Load.Frame

namespace Session

open Load

variable {s : ModelSet} {files : FileTree} {name text file : String} {origin : SourceRef}
  {log : List LoadEvent} {e : SourceError} {pos : Position}

/-- When an unknown model is parsed between the steps of a session and a text is refused, the error
names the origin of the text that was given, or a file or page that was included on the way,
directly or not, and that was read during the call. In either case its place is that of a token, of
the end or of the first part that is no lexeme, in the text of that very origin, file or page. -/
theorem error_locations (session : Leads .empty s) (unknown : ¬ s.Knows name)
    (failed : ((parseModel files name text origin).exec ⟨s, log⟩).1 = .error e)
    (located : e.place? = some (file, pos)) :
    (file = origin.label name ∧ Language.definitions.Marks text.toList pos) ∨
      ∃ last events, Frame.Chain files e ⟨name, text, origin, ⟨s, log⟩⟩ last ∧
        ((parseModel files name text origin).exec ⟨s, log⟩).2.log = log ++ events ∧
        (last.origin = .file file ∧ files.read file = .ok last.text ∧ .reading file ∈ events ∨
          last.origin = .url file ∧ files.fetch? file = some last.text ∧
            .fetching file ∈ events) ∧
        Language.definitions.Marks last.text.toList pos := by
  let first : Frame := ⟨name, text, origin, ⟨s, log⟩⟩
  have fresh : first.Fresh := ⟨session.wellFormed .empty, unknown⟩
  obtain ⟨last, chain, isFile, marks⟩ := Frame.located_error fresh failed located
  rcases chain.reading fresh with rfl | ⟨content, events, told, read⟩
  · exact .inl ⟨isFile.symm, marks⟩
  · refine .inr ⟨last, events, chain, told, ?_, marks⟩
    rw [Frame.file] at isFile
    cases origin : last.origin with
    | nowhere =>
        rw [origin] at content
        cases content
    | file path =>
        rw [origin] at content read isFile
        cases isFile
        exact .inl ⟨rfl, eq_ok_of_toOption content, read List.mem_cons_self⟩
    | url address =>
        rw [origin] at content read isFile
        cases isFile
        exact .inr ⟨rfl, content, read List.mem_cons_self⟩

/-- After a load that failed, a text includes a file that includes a page. The error is in the
second line of the page, behind a comment, and the page was fetched. -/
theorem error_locations_on_included_page :
    let page := "http://h/b.thrift"
    let files : FileTree :=
      ⟨[], [(["a.thrift"], .file (.text "\ninclude \"http://h/b.thrift\""))],
        [(page, "/* é\n */ struct B \x7b 1: i32 x, 1: i32 y \x7d")]⟩
    let s := (((Call.load (.file "a.thrift")).run files (Load.maxDepth files)).exec {}).2.set
    let first : Frame := ⟨"m", "\n include \"a.thrift\"", .nowhere, ⟨s, []⟩⟩
    let error : SourceError := .model page ⟨2, 26⟩ (.duplicateFieldId 1 "b.B")
    (first.run files).1 = .error error ∧ ∃ last, first.Chain files error last ∧
      last.origin = .url page ∧ files.fetch? page = some last.text ∧
      .fetching page ∈ (first.run files).2.log ∧
      Language.definitions.Marks last.text.toList ⟨2, 26⟩ := by
  intro page files s first error
  have session : Leads .empty s := .single (.call _ files _ _ [])
  have unknown : ¬ s.Knows "m" := by decide +kernel
  have failed : (first.run files).1 = .error error := eq_error_of_refusal? (by decide +kernel)
  rcases error_locations session unknown failed rfl with
    ⟨other, _⟩ | ⟨last, events, chain, told, ⟨_, isFile, _⟩ | ⟨isPage, content, read⟩, marks⟩
  · exact absurd other (by decide)
  · have noFile : (files.read page).toOption = none := by decide
    rw [isFile] at noFile
    cases noFile
  · exact ⟨failed, last, chain, isPage, content, told ▸ read, marks⟩

end Session

end IdlGen
