import IdlGen.Proofs.Idl.Additions
import IdlGen.Proofs.Idl.Likeness
import IdlGen.Proofs.Model.Conflicts

/-!
# Where and why a file is refused

An error of a file stands at one of its tokens or at its end, and it names the file under the
reader. All rules of the grammar keep to that, because they only see tokens of the file and pass the
rest of them on. This holds of the errors of grammar and of those of the model, which a rule gets
when it adds what it has read.

The causes of the latter are a parameter of the contract. Parts of declarations are refused without
a conflict; of whole declarations and of includes it has to be known when their conflicts arise.
-/

namespace IdlGen

/-- An error of the file under the reader, at one of the tokens or at the end. If it comes from the
model, its cause is in `B`. -/
inductive Reader.Faults (r : Reader) (B : ModelError → Prop) (all : List Token) : SourceError → Prop
  | parse {t : Token} (here : t ∈ r.eof :: all) (fault : ParseFault) :
      r.Faults B all (.parse r.file t.pos fault)
  | model {t : Token} (here : t ∈ r.eof :: all) {cause : ModelError} (allowed : B cause) :
      r.Faults B all (.model r.file t.pos cause)

/-- The rule has a result in `Q`, or it refuses the file. -/
def Reader.Reports {α : Type} (r : Reader) (B : ModelError → Prop) (all : List Token)
    (y : Except SourceError α) (Q : α → Prop) : Prop :=
  (∀ a, y = .ok a → Q a) ∧ ∀ e, y = .error e → r.Faults B all e

namespace Reader.Reports

variable {α β : Type} {r : Reader} {B : ModelError → Prop} {all toks : List Token}
  {y : Except SourceError α} {Q Q' : α → Prop} {R : β → Prop} {t : Token}

theorem ok {a : α} (post : Q a) : r.Reports B all (.ok a) Q :=
  ⟨fun _ same => Except.ok.inj same ▸ post, fun _ failed => by cases failed⟩

theorem fail (here : t ∈ r.eof :: all) (fault : ParseFault) :
    r.Reports B all (r.fail t fault) Q :=
  ⟨fun _ done => (by cases done), fun _ failed => Except.error.inj failed ▸ .parse here fault⟩

theorem unexpected (here : t ∈ r.eof :: all) : r.Reports B all (r.unexpected t) Q :=
  fail here _

theorem bind {f : α → Except SourceError β} (first : r.Reports B all y Q)
    (second : ∀ a, Q a → r.Reports B all (f a) R) : r.Reports B all (y >>= f) R := by
  cases y with
  | ok a => exact second a (first.1 a rfl)
  | error e => exact ⟨fun _ done => (by cases done), fun _ failed =>
      Except.error.inj failed ▸ first.2 e rfl⟩

theorem map {g : α → β} (first : r.Reports B all y fun a => R (g a)) :
    r.Reports B all (y.map g) R := by
  cases y with
  | ok a => exact ok (first.1 a rfl)
  | error e => exact ⟨fun _ done => (by cases done), fun _ failed =>
      Except.error.inj failed ▸ first.2 e rfl⟩

theorem mono (h : r.Reports B all y Q) (post : ∀ a, Q a → Q' a) : r.Reports B all y Q' :=
  ⟨fun a done => post a (h.1 a done), h.2⟩

theorem spelled {x : Except SpellingError α} (here : t ∈ r.eof :: all) :
    r.Reports B all (r.spelled t x) fun a => x = .ok a := by
  cases x with
  | ok a => exact ok rfl
  | error e => exact fail here _

theorem blame {x : Except ModelError α} (here : t ∈ r.eof :: all)
    (causes : ∀ e, x = .error e → B e) : r.Reports B all (r.blame t x) fun a => x = .ok a := by
  cases x with
  | ok a => exact ok rfl
  | error e => exact ⟨fun _ done => (by cases done), fun _ failed =>
      Except.error.inj failed ▸ .model here (causes e rfl)⟩

/-- The token ahead is one of the tokens of the file, or its end. -/
theorem current_mem (behind : toks <:+ all) : r.current toks ∈ r.eof :: all := by
  cases toks with
  | nil => exact List.mem_cons_self
  | cons t rest => exact List.mem_cons_of_mem _ (behind.subset List.mem_cons_self)

theorem take {p : Token → Bool} {what : Expected} (behind : toks <:+ all) :
    r.Reports B all (r.take p what toks) fun q => q.value ∈ r.eof :: all ∧ q.rest <:+ all := by
  have refused : r.Reports B all (r.expected what toks : Except SourceError (Parsed toks Token))
      fun q => q.value ∈ r.eof :: all ∧ q.rest <:+ all := fail (current_mem behind) _
  cases toks with
  | nil => exact refused
  | cons t rest =>
      rw [Reader.take]
      split
      · exact ok ⟨current_mem behind, (List.suffix_cons t rest).trans behind⟩
      · exact refused

end Reader.Reports

namespace LoadM

/-- The computation has a result in `Q`, or it refuses the file. -/
def Reports {α : Type} (r : Reader) (B : ModelError → Prop) (all : List Token) (x : LoadM α)
    (Q : α → Prop) (σ : LoadState) : Prop :=
  x.WP (fun a _ => Q a) (fun e _ => r.Faults B all e) σ

namespace Reports

variable {α β : Type} {r : Reader} {B : ModelError → Prop} {all : List Token} {x : LoadM α}
  {f : α → LoadM β} {y : Except SourceError α} {Q : α → Prop} {R : β → Prop} {σ : LoadState}

theorem pure {a : α} (post : Q a) : Reports r B all (Pure.pure a : LoadM α) Q σ := post

theorem lift (h : r.Reports B all y Q) : Reports r B all (liftM y : LoadM α) Q σ :=
  WP.lift_iff.mpr h

theorem bind (first : Reports r B all x Q σ)
    (second : ∀ a τ, Q a → Reports r B all (f a) R τ) : Reports r B all (x >>= f) R σ :=
  WP.bind_iff.mpr (WP.mono first second fun _ _ => id)

theorem lift_bind (first : r.Reports B all y Q)
    (second : ∀ a, Q a → Reports r B all (f a) R σ) : Reports r B all (liftM y >>= f) R σ :=
  WP.bind_iff.mpr (WP.lift_iff.mpr ⟨fun a done => second a (first.1 a done), first.2⟩)

theorem refuse_bind {t : Token} (here : t ∈ r.eof :: all) (fault : ParseFault) :
    Reports r B all (liftM (r.fail t fault : Except SourceError α) >>= f) R σ :=
  .parse here fault

/-- A step that also keeps the contract of declarations. -/
theorem bind_declares {P : α → ModelSet → Prop} (first : Reports r B all x Q σ)
    (declares : Declares (fun _ => False) x P σ)
    (second : ∀ a τ, σ.set.Progress (fun _ => False) τ.set → Q a → Reports r B all (f a) R τ) :
    Reports r B all (x >>= f) R σ :=
  WP.bind_iff.mpr ((WP.and first declares).mono
    (fun a τ ⟨post, made, _⟩ => second a τ made post) fun _ _ h => h.1)

theorem getSet_bind {g : ModelSet → LoadM β} (next : Reports r B all (g σ.set) R σ) :
    Reports r B all (getSet >>= g) R σ :=
  next

theorem updateSet_bind {g : ModelSet → α × ModelSet}
    (next : Reports r B all (f (g σ.set).1) R { σ with set := (g σ.set).2 }) :
    Reports r B all (updateSet g >>= f) R σ :=
  next

theorem setSet_bind {s : ModelSet} {g : Unit → LoadM β}
    (next : Reports r B all (g ()) R { σ with set := s }) :
    Reports r B all (setSet s >>= g) R σ :=
  next

end Reports

/-- A rule that may also fail in another way goes on from a part that only refuses the file. -/
theorem WP.lift_bind {α β : Type} {r : Reader} {B : ModelError → Prop} {all : List Token}
    {y : Except SourceError α} {f : α → LoadM β} {Q : α → Prop} {P : β → LoadState → Prop}
    {F : SourceError → Prop} {σ : LoadState} (first : r.Reports B all y Q)
    (second : ∀ a, y = .ok a → Q a → (f a).WP P (fun e _ => r.Faults B all e ∨ F e) σ) :
    (liftM y >>= f).WP P (fun e _ => r.Faults B all e ∨ F e) σ :=
  WP.bind_iff.mpr (WP.lift_iff.mpr
    ⟨fun a done => second a done (first.1 a done), fun e failed => .inl (first.2 e failed)⟩)

end LoadM

open LoadM

namespace Idl

variable {r : Reader} {B : ModelError → Prop} {all toks : List Token}
  {lookup : String → Option Symbol} {t : Token}

theorem wordLiteral_reports (here : t ∈ r.eof :: all) :
    r.Reports B all (wordLiteral r lookup t) fun _ => True := by
  unfold wordLiteral
  split
  · exact .ok trivial
  · exact .ok trivial
  · exact .ok trivial
  · split
    · exact .ok trivial
    · exact .ok trivial
    · exact .fail here _
    · exact .fail here _

theorem scalarLiteral_reports (here : t ∈ r.eof :: all) :
    r.Reports B all (scalarLiteral r lookup t) fun _ => True := by
  unfold scalarLiteral
  split
  · exact .map (.mono (.spelled here) fun _ _ => trivial)
  · split
    · exact .ok trivial
    · exact .fail here _
  · exact .map (.mono (.spelled here) fun _ _ => trivial)
  · exact .map (.mono (.spelled here) fun _ _ => trivial)
  · exact wordLiteral_reports here
  · exact .unexpected here

/-- The rules for literals keep the contract from `toks`. -/
structure LiteralReports (r : Reader) (B : ModelError → Prop) (all : List Token)
    (lookup : String → Option Symbol) (toks : List Token) : Prop where
  literal : r.Reports B all (literal r lookup toks) (·.rest <:+ all)
  items : r.Reports B all (literalItems r lookup toks) (·.rest <:+ all)
  entries : r.Reports B all (literalEntries r lookup toks) (·.rest <:+ all)

section

variable (shorter : ∀ rest : List Token, rest.length < toks.length → rest <:+ all →
  LiteralReports r B all lookup rest)
include shorter

theorem literal_reports_of_shorter (behind : toks <:+ all) :
    r.Reports B all (literal r lookup toks) (·.rest <:+ all) := by
  unfold literal
  cases toks with
  | nil => exact .unexpected List.mem_cons_self
  | cons t rest =>
      have later := (List.suffix_cons t rest).trans behind
      have ahead := shorter rest (by simp) later
      dsimp only
      split
      · refine .bind ahead.items ?_
        rintro ⟨items, _, _⟩ left
        exact .ok left
      · split
        · refine .bind ahead.entries ?_
          rintro ⟨entries, _, _⟩ left
          exact .ok left
        · refine .bind (scalarLiteral_reports (Reader.Reports.current_mem behind)) fun _ _ => ?_
          exact .ok later

theorem literalEntry_reports (behind : toks <:+ all) :
    r.Reports B all (literalEntry r lookup toks) (·.rest <:+ all) := by
  unfold literalEntry
  refine .bind (literal_reports_of_shorter shorter behind) fun key atColon => ?_
  refine .bind (.take atColon) fun colon atValue => ?_
  have fewer := Nat.lt_trans colon.shorter key.shorter
  exact .bind (shorter colon.rest fewer atValue.2).literal fun value left => .ok left

end

theorem literalReports (behind : toks <:+ all) : LiteralReports r B all lookup toks := by
  induction size : toks.length using Nat.strongRecOn generalizing toks with
  | ind n ih =>
      have shorter (rest : List Token) (bound : rest.length < toks.length) (later : rest <:+ all) :
          LiteralReports r B all lookup rest :=
        ih _ (size ▸ bound) later rfl
      constructor
      · exact literal_reports_of_shorter shorter behind
      · unfold literalItems
        split
        · rename_i skipped
          exact .ok ((skipIf?_suffix skipped).trans behind)
        · refine .bind (literal_reports_of_shorter shorter behind) ?_
          rintro ⟨item, afterItem, _⟩ left
          have separated := (skipSeparator_suffix afterItem).trans left
          dsimp only
          generalize skipSeparator afterItem = next at separated ⊢
          obtain ⟨next, _⟩ := next
          refine .bind (shorter next (by omega) separated).items ?_
          rintro ⟨items, _, _⟩ left
          exact .ok left
      · unfold literalEntries
        split
        · rename_i skipped
          exact .ok ((skipIf?_suffix skipped).trans behind)
        · refine .bind (literalEntry_reports shorter behind) ?_
          rintro ⟨entry, afterEntry, _⟩ left
          have separated := (skipSeparator_suffix afterEntry).trans left
          dsimp only
          generalize skipSeparator afterEntry = next at separated ⊢
          obtain ⟨next, _⟩ := next
          refine .bind (shorter next (by omega) separated).entries ?_
          rintro ⟨entries, _, _⟩ left
          exact .ok left

theorem literal_reports (behind : toks <:+ all) :
    r.Reports B all (literal r lookup toks) (·.rest <:+ all) :=
  (literalReports behind).literal

theorem annotationValue_reports (behind : toks <:+ all) :
    r.Reports B all (annotationValue r toks) (·.rest <:+ all) := by
  unfold annotationValue
  cases toks with
  | nil => exact .unexpected List.mem_cons_self
  | cons t rest =>
      have here : t ∈ r.eof :: all := Reader.Reports.current_mem (r := r) behind
      have later := (List.suffix_cons t rest).trans behind
      dsimp only
      split
      · exact .bind (.spelled here) fun _ _ => .ok later
      · split
        · exact .ok later
        · exact .unexpected here

theorem annotationEntries_reports {acc : Annotations} (behind : toks <:+ all) :
    r.Reports B all (annotationEntries r acc toks) (·.rest <:+ all) := by
  induction size : toks.length using Nat.strongRecOn generalizing toks acc with
  | ind length ih =>
      unfold annotationEntries
      split
      · rename_i skipped
        exact .ok ((skipIf?_suffix skipped).trans behind)
      · refine .bind (.take behind) ?_
        rintro ⟨key, afterKey, _⟩ ⟨_, atKey⟩
        -- Both kinds of entry go on with the separator behind them.
        have further {acc : Annotations} {after : List Token} (fewer : after.length < length)
            (left : after <:+ all) :
            r.Reports B all (annotationEntries r acc (skipSeparator after).1) (·.rest <:+ all) :=
          ih _ (Nat.lt_of_le_of_lt (skipSeparator after).2 fewer)
            ((skipSeparator_suffix after).trans left) rfl
        dsimp only
        split
        · rename_i atValue _ skipped
          have valueBehind := (skipIf?_suffix skipped).trans atKey
          refine .bind (annotationValue_reports valueBehind) ?_
          rintro ⟨value, afterValue, _⟩ left
          have fewer : afterValue.length < length := by omega
          refine .bind (further fewer left) ?_
          rintro ⟨acc, rest, _⟩ left
          exact .ok left
        · refine .bind (further (by omega) atKey) ?_
          rintro ⟨acc, rest, _⟩ left
          exact .ok left

theorem annotations_reports (behind : toks <:+ all) :
    r.Reports B all (annotations r toks) (·.rest <:+ all) := by
  unfold annotations
  split
  · exact .ok behind
  · rename_i skipped
    have inside := (skipIf?_suffix skipped).trans behind
    exact .bind (annotationEntries_reports inside) fun entries left => .ok left

theorem fieldDefault_reports (behind : toks <:+ all) :
    r.Reports B all (fieldDefault r lookup toks) (·.rest <:+ all) := by
  unfold fieldDefault
  split
  · exact .ok behind
  · rename_i skipped
    have atValue := (skipIf?_suffix skipped).trans behind
    exact .bind (literal_reports atValue) fun lit left => .ok left

section

variable (harmless : ∀ cause : ModelError, cause.isConflict = false → B cause)
include harmless

theorem enumElement_reports {b : EnumBuilder} (behind : toks <:+ all) :
    r.Reports B all (enumElement r b toks) (·.rest <:+ all) := by
  unfold enumElement
  refine .bind (.take behind) fun name atName => ?_
  split
  · rename_i skipped
    have atId := (skipIf?_suffix skipped).trans atName.2
    refine .bind (.take atId) fun idToken left => .bind (.spelled left.1) fun id _ => ?_
    refine .bind (.blame atName.1 fun e failed => ?_) fun b' _ => .ok left.2
    exact harmless e (b.addWithId_peaceful _ _ e failed)
  · refine .bind (.blame atName.1 fun e failed => ?_) fun b' _ => .ok atName.2
    exact harmless e (b.add_peaceful _ e failed)

theorem enumElements_reports {b : EnumBuilder} (behind : toks <:+ all) :
    r.Reports B all (enumElements r b toks) (·.rest <:+ all) := by
  induction size : toks.length using Nat.strongRecOn generalizing toks b with
  | ind length ih =>
      unfold enumElements
      split
      · rename_i skipped
        exact .ok ((skipIf?_suffix skipped).trans behind)
      · refine .bind (enumElement_reports harmless behind) ?_
        rintro ⟨b', afterElement, _⟩ left
        refine .bind (annotations_reports left) ?_
        rintro ⟨_, afterNotes, _⟩ left
        have separated := (skipSeparator_suffix afterNotes).trans left
        dsimp only
        generalize skipSeparator afterNotes = next at separated ⊢
        obtain ⟨next, _⟩ := next
        refine .bind (ih next.length (by omega) separated rfl) ?_
        rintro ⟨b'', rest, _⟩ left
        exact .ok left

theorem namespaceDecl_reports {m : Model} (behind : toks <:+ all) :
    r.Reports B all (namespaceDecl r m toks) (·.rest <:+ all) := by
  unfold namespaceDecl
  refine .bind (.take behind) fun keyword atGenerator => ?_
  refine .bind (.take atGenerator.2) fun generator atName => ?_
  refine .bind (.take atName.2) fun name left => ?_
  refine .bind (.blame atName.1 fun e failed => ?_) fun m' _ => .ok left.2
  exact harmless e (m.addNamespace_peaceful _ e failed)

theorem extendsClause_reports {m : Model} {s : ModelSet} (behind : toks <:+ all) :
    r.Reports B all (extendsClause r m s toks) (·.rest <:+ all) := by
  unfold extendsClause
  split
  · exact .ok behind
  · rename_i skipped
    have atName := (skipIf?_suffix skipped).trans behind
    refine .bind (.take atName) fun name left => ?_
    refine .bind (.blame left.1 fun e failed => ?_) fun parent _ => .ok left.2
    exact harmless e (m.lookupService_peaceful s _ e failed)

omit harmless in
theorem namedType_reports {m : Model} {declaring : Declaring} {s : ModelSet}
    (here : t ∈ r.eof :: all) : r.Reports B all (namedType r m declaring t s) fun _ => True := by
  unfold namedType
  split
  · exact .ok trivial
  · split
    · split
      · exact .fail here _
      · exact .fail here _
    · exact .fail here _

omit harmless in
theorem typeExpr_reports {m : Model} {declaring : Declaring} {allowVoid : Bool} {σ : LoadState}
    (behind : toks <:+ all) :
    Reports r B all (typeExpr r m declaring allowVoid toks) (·.rest <:+ all) σ := by
  induction h : toks.length using Nat.strongRecOn generalizing toks allowVoid σ with
  | ind length ih =>
      have elem : ∀ {inside : List Token} {τ : LoadState}, inside.length < length →
          inside <:+ all →
          Reports r B all (typeExpr r m declaring false inside) (·.rest <:+ all) τ :=
        fun shorter later => ih _ shorter later rfl
      unfold typeExpr
      split
      · exact .lift (.fail List.mem_cons_self _)
      · rename_i t rest
        have here : t ∈ r.eof :: all := Reader.Reports.current_mem (r := r) behind
        have later := (List.suffix_cons t rest).trans behind
        simp only [List.length_cons] at h
        split
        · exact .lift (.fail here _)
        · split
          · split
            · exact .pure later
            · exact .lift (.fail here _)
          · exact .pure later
          · refine .lift_bind (.take later) ?_
            rintro ⟨_, inside, _⟩ ⟨_, atElem⟩
            refine .bind (elem (by omega) atElem) ?_
            rintro ⟨e, _, _⟩ τ atClose
            refine .lift_bind (.take atClose) ?_
            rintro ⟨_, _, _⟩ ⟨_, left⟩
            exact .updateSet_bind (.pure left)
          · refine .lift_bind (.take later) ?_
            rintro ⟨_, inside, _⟩ ⟨_, atElem⟩
            refine .bind (elem (by omega) atElem) ?_
            rintro ⟨e, _, _⟩ τ atClose
            refine .lift_bind (.take atClose) ?_
            rintro ⟨_, _, _⟩ ⟨_, left⟩
            exact .updateSet_bind (.pure left)
          · refine .lift_bind (.take later) ?_
            rintro ⟨_, inside, _⟩ ⟨_, atKey⟩
            refine .bind (elem (by omega) atKey) ?_
            rintro ⟨k, _, _⟩ τ atComma
            refine .lift_bind (.take atComma) ?_
            rintro ⟨_, afterComma, _⟩ ⟨_, atValue⟩
            refine .bind (elem (by omega) atValue) ?_
            rintro ⟨v, _, _⟩ υ atClose
            refine .lift_bind (.take atClose) ?_
            rintro ⟨_, _, _⟩ ⟨_, left⟩
            exact .updateSet_bind (.pure left)
          · exact .getSet_bind (.lift_bind (namedType_reports here) fun _ _ => .pure later)

theorem field_reports {m : Model} {declaring : Declaring} {σ : LoadState}
    (behind : toks <:+ all) :
    Reports r B all (field r m declaring toks)
      (fun p => p.value.1 ∈ r.eof :: all ∧ p.rest <:+ all) σ := by
  unfold field
  refine .lift_bind (.take behind) ?_
  rintro ⟨idToken, afterId, _⟩ ⟨atId, left⟩
  refine .lift_bind (.spelled atId) fun id _ => .lift_bind (.take left) ?_
  rintro ⟨_, afterColon, _⟩ ⟨_, left⟩
  have atType := (requiredness_suffix afterColon).trans left
  dsimp only
  generalize requiredness afterColon = mark at atType ⊢
  obtain ⟨required, atType', _⟩ := mark
  refine .bind (typeExpr_reports atType) ?_
  rintro ⟨ty, afterType, _⟩ τ left
  refine .lift_bind (.take left) ?_
  rintro ⟨name, afterName, _⟩ ⟨atName, left⟩
  refine .getSet_bind (.lift_bind (fieldDefault_reports left) ?_)
  rintro ⟨default, afterDefault, _⟩ left
  refine .lift_bind (annotations_reports left) ?_
  rintro ⟨notes, rest, _⟩ left
  refine .lift_bind (.blame atName fun e failed => ?_) fun f _ => .pure ⟨atId, left⟩
  exact harmless e (Field.ofLiteral_peaceful _ _ _ _ _ _ _ e failed)

theorem fieldsUntil_reports {m : Model} {declaring : Declaring} {close : String}
    {acc : FieldSet Ty} {σ : LoadState} (behind : toks <:+ all) :
    Reports r B all (fieldsUntil r m declaring close acc toks) (·.rest <:+ all) σ := by
  induction h : toks.length using Nat.strongRecOn generalizing toks acc σ with
  | ind length ih =>
      unfold fieldsUntil
      split
      · rename_i skipped
        exact .pure ((skipIf?_suffix skipped).trans behind)
      · refine .bind (field_reports harmless behind) ?_
        rintro ⟨⟨idToken, f⟩, afterField, _⟩ τ ⟨atId, left⟩
        have separated := (skipSeparator_suffix afterField).trans left
        refine .lift_bind (.blame atId fun e failed => ?_) fun acc' _ => ?_
        · exact harmless e (acc.add_peaceful f e failed)
        · generalize skipSeparator afterField = next at separated ⊢
          obtain ⟨next, _⟩ := next
          refine .bind (ih next.length (by omega) separated rfl) ?_
          rintro ⟨acc'', rest, _⟩ υ left
          exact .pure left

theorem throwsClause_reports {m : Model} {owner : String} {σ : LoadState}
    (behind : toks <:+ all) :
    Reports r B all (throwsClause r m owner toks) (·.rest <:+ all) σ := by
  unfold throwsClause
  split
  · exact .pure behind
  · rename_i skipped
    have afterKeyword := (skipIf?_suffix skipped).trans behind
    refine .lift_bind (.take afterKeyword) fun inside atFields => ?_
    exact .bind (fieldsUntil_reports harmless atFields.2) fun fields τ left => .pure left

theorem function_reports {m : Model} {service : String} {σ : LoadState} (behind : toks <:+ all) :
    Reports r B all (function r m service toks)
      (fun p => p.value.1 ∈ r.eof :: all ∧ p.rest <:+ all) σ := by
  unfold function
  have atResult := (onewayMark_suffix toks).trans behind
  dsimp only
  generalize onewayMark toks = mark at atResult ⊢
  obtain ⟨oneway, atResult', _⟩ := mark
  refine .bind (typeExpr_reports atResult) ?_
  rintro ⟨result, afterResult, _⟩ τ left
  refine .lift_bind (.take left) ?_
  rintro ⟨name, afterName, _⟩ ⟨atName, left⟩
  dsimp only
  split
  · exact .refuse_bind atName _
  · refine .lift_bind (.take left) ?_
    rintro ⟨_, inside, _⟩ ⟨_, left⟩
    refine .bind (fieldsUntil_reports harmless left) ?_
    rintro ⟨args, afterArgs, _⟩ υ left
    refine .bind (throwsClause_reports harmless left) ?_
    rintro ⟨throws, afterThrows, _⟩ ω left
    dsimp only
    split
    · exact .refuse_bind atName _
    · refine .lift_bind (annotations_reports left) ?_
      rintro ⟨_, rest, _⟩ left
      exact .pure ⟨atName, left⟩

theorem functions_reports {m : Model} {body : ServiceBody} {σ : LoadState}
    (behind : toks <:+ all) :
    Reports r B all (functions r m body toks) (·.rest <:+ all) σ := by
  induction h : toks.length using Nat.strongRecOn generalizing toks body σ with
  | ind length ih =>
      unfold functions
      split
      · rename_i skipped
        exact .pure ((skipIf?_suffix skipped).trans behind)
      · refine .bind (function_reports harmless behind) ?_
        rintro ⟨⟨name, f⟩, afterFunction, _⟩ τ ⟨atName, left⟩
        have separated := (skipSeparator_suffix afterFunction).trans left
        refine .lift_bind (.blame atName fun e failed => ?_) fun body' _ => ?_
        · exact harmless e (body.addFunction_peaceful f e failed)
        · generalize skipSeparator afterFunction = next at separated ⊢
          obtain ⟨next, _⟩ := next
          refine .bind (ih next.length (by omega) separated rfl) ?_
          rintro ⟨body'', rest, _⟩ υ left
          exact .pure left

omit harmless in
theorem identifier_reports (behind : toks <:+ all) :
    r.Reports B all (identifier r toks)
      fun q => q.value ∈ r.eof :: all ∧ q.rest <:+ all ∧ Identifier q.value.text := by
  have token : r.Reports B all (identifier r toks) _ := .take behind
  obtain ⟨taken, failed⟩ := token
  exact ⟨fun q read => ⟨(taken q read).1, (taken q read).2, identifier_eq_ok read⟩, failed⟩

theorem constDecl_reports {m : Model} {σ : LoadState} (behind : toks <:+ all) :
    Reports r B all (constDecl r m toks) (·.rest <:+ all) σ := by
  unfold constDecl
  refine .lift_bind (.take behind) fun keyword left => ?_
  refine .bind (typeExpr_reports left.2) fun ty τ left => ?_
  refine .lift_bind (.take left) fun name atName => ?_
  refine .lift_bind (.take atName.2) fun equals left => ?_
  refine .getSet_bind (.lift_bind (literal_reports left.2) fun lit left => ?_)
  refine .lift_bind (.blame atName.1 fun e failed => ?_) fun c _ => ?_
  · exact harmless e (Constant.ofLiteral_peaceful _ _ _ _ _ e failed)
  · refine .lift_bind (.blame atName.1 fun e failed => ?_) fun m' _ => .pure left
    exact harmless e (m.addConst_peaceful τ.set c e failed)

theorem serviceDecl_reports {m : Model} {σ : LoadState} (behind : toks <:+ all) :
    Reports r B all (serviceDecl r m toks) (·.rest <:+ all) σ := by
  unfold serviceDecl
  refine .lift_bind (.take behind) ?_
  rintro ⟨keyword, atName, _⟩ ⟨_, left⟩
  refine .lift_bind (.take left) ?_
  rintro ⟨name, afterName, _⟩ ⟨atName, left⟩
  refine .getSet_bind (.lift_bind (extendsClause_reports harmless left) ?_)
  rintro ⟨parent, afterParent, _⟩ left
  refine .lift_bind (.take left) ?_
  rintro ⟨_, inside, _⟩ ⟨_, left⟩
  refine .bind (functions_reports harmless left) ?_
  rintro ⟨body, afterBody, _⟩ τ left
  refine .lift_bind (annotations_reports left) ?_
  rintro ⟨_, rest, _⟩ left
  refine .getSet_bind (.lift_bind (.blame atName fun e failed => ?_) fun m' _ => .pure left)
  exact harmless e (m.addService_peaceful τ.set _ e failed)

section

variable {m : Model} {σ : LoadState} (wf : σ.set.WellFormed)
  (fair : ∀ s, σ.set.Progress (fun _ => False) s → ∀ d : Declaration, Identifier d.name →
    ∀ e, d.add s m = .error e → B e)
include wf fair

theorem enumDecl_reports (behind : toks <:+ all) :
    Reports r B all (enumDecl r m toks) (·.rest <:+ all) σ := by
  unfold enumDecl
  refine .lift_bind (.take behind) ?_
  rintro ⟨keyword, atName, _⟩ ⟨_, left⟩
  refine .lift_bind (identifier_reports left) ?_
  rintro ⟨name, afterName, _⟩ ⟨atName, left, isName⟩
  have made : σ.set.Progress (fun _ => False) (σ.set.newEnum (m.qname name.text) keyword.docs).2 :=
    .takeStamp wf
  refine .updateSet_bind (.lift_bind (.take left) ?_)
  rintro ⟨_, inside, _⟩ ⟨_, left⟩
  refine .lift_bind (enumElements_reports harmless left) ?_
  rintro ⟨b, afterBody, _⟩ left
  refine .lift_bind (annotations_reports left) ?_
  rintro ⟨_, rest, _⟩ left
  refine .getSet_bind (.lift_bind (.blame atName fun e failed => ?_) ?_)
  · refine fair _ made (.enum name.text b.build) isName e ?_
    rw [Declaration.add, failed]
    rfl
  · rintro ⟨t, m', s⟩ _
    exact .setSet_bind (.pure left)

theorem recordDecl_reports {kind : RecordKind} (behind : toks <:+ all) :
    Reports r B all (recordDecl r m kind toks) (·.rest <:+ all) σ := by
  unfold recordDecl
  refine .lift_bind (.take behind) ?_
  rintro ⟨keyword, atName, _⟩ ⟨_, left⟩
  refine .lift_bind (identifier_reports left) ?_
  rintro ⟨name, afterName, _⟩ ⟨atName, left, isName⟩
  refine .lift_bind (.take left) ?_
  rintro ⟨_, inside, _⟩ ⟨_, left⟩
  refine .bind_declares (fieldsUntil_reports harmless left)
    (fieldsUntil_declares wf (by simp [FieldSet.types])) ?_
  rintro ⟨fields, afterBody, _⟩ τ made left
  refine .lift_bind (annotations_reports left) ?_
  rintro ⟨notes, rest, _⟩ left
  refine .getSet_bind (.lift_bind (.blame atName fun e failed => ?_) ?_)
  · refine fair τ.set made (.record (kind = .exception) name.text
      ⟨fields, kind = .union, notes, keyword.docs⟩) isName e ?_
    rw [Declaration.add, failed]
    rfl
  · rintro ⟨t, m', s⟩ _
    exact .setSet_bind (.pure left)

end

/-- The next declaration of a file at `origin` is the include of the source. -/
def IncludeAhead (origin : SourceRef) (toks : List Token) (source : SourceRef) : Prop :=
  ∃ keyword pathToken rest path, toks = keyword :: pathToken :: rest ∧ keyword.kind = .word ∧
    keyword.text = "include" ∧ pathToken.kind = .string ∧
    Spelling.decodeString pathToken.text = .ok path ∧ source = origin.parent.child path

/-- The declaration ahead includes a model that is not known, and this cannot be loaded. -/
def IncludeFails (r : Reader) (origin : SourceRef) (load : Loader) (toks : List Token)
    (σ : LoadState) (e : SourceError) : Prop :=
  ∃ source name, IncludeAhead origin toks source ∧ source.modelName? = some name ∧
    ¬ σ.set.Knows name ∧
    ((load source).exec { σ with log := σ.log ++ [.includes r.file source] }).1 = .error e

variable {m : Model} {σ : LoadState} {origin : SourceRef} {load : Loader}

section

variable (circular : ∀ source n, IncludeAhead origin toks source → source.modelName? = some n →
  σ.set.isPending n = true → B (.circularInclude n))
include circular

omit harmless in
theorem includeDecl_fails (behind : toks <:+ all) (word : (r.current toks).text = "include") :
    (includeDecl r origin load m toks).WP (fun p _ => p.rest <:+ all)
      (fun e _ => r.Faults B all e ∨ IncludeFails r origin load toks σ e) σ := by
  unfold includeDecl
  refine .lift_bind (.take behind) fun keyword read atPath => ?_
  refine .lift_bind (.take atPath.2) fun pathToken readPath ⟨here, left⟩ => ?_
  refine .lift_bind (.spelled here) fun path _ decoded => ?_
  have ahead : IncludeAhead origin toks (origin.parent.child path) := by
    have isKeyword : r.current toks = keyword.value :=
      congrArg (r.current ·) (Reader.take_cons read)
    have reading : toks = keyword.value :: pathToken.value :: pathToken.rest :=
      (Reader.take_cons read).trans (congrArg _ (Reader.take_cons readPath))
    exact ⟨_, _, _, path, reading, of_decide_eq_true (Reader.take_eq_ok read), isKeyword ▸ word,
      of_decide_eq_true (Reader.take_eq_ok readPath), decoded, rfl⟩
  dsimp only
  split
  · exact .inl (.parse here _)
  · rename_i name named
    refine WP.bind_iff.mpr (WP.getSet_iff.mpr ?_)
    split
    · rename_i pending
      exact .inl (.model here (circular _ name ahead named pending))
    · rename_i free
      split
      · rename_i unloaded
        have unknown : ¬ σ.set.Knows name := fun known =>
          known.elim (fun loaded => (by simp [loaded] at unloaded)) free
        refine WP.bind_iff.mpr (WP.tell_iff.mpr (WP.bind_iff.mpr ?_))
        refine WP.of_exec.mono (fun _ _ _ => left) fun e τ run => ?_
        exact .inr ⟨_, name, ahead, named, unknown, congrArg Prod.fst run⟩
      · exact left

/-- A declaration is refused at a token of its file, or it includes a model that cannot be
loaded. -/
theorem declaration_fails (wf : σ.set.WellFormed)
    (fair : ∀ s, σ.set.Progress (fun _ => False) s → ∀ d : Declaration, Identifier d.name →
      ∀ e, d.add s m = .error e → B e) (behind : toks <:+ all) :
    (declaration r origin load m toks).WP (fun p _ => p.rest <:+ all)
      (fun e _ => r.Faults B all e ∨ IncludeFails r origin load toks σ e) σ := by
  have own {x : LoadM (Parsed toks Model)} (reports : x.Reports r B all (·.rest <:+ all) σ) :
      x.WP (fun p _ => p.rest <:+ all)
        (fun e _ => r.Faults B all e ∨ IncludeFails r origin load toks σ e) σ :=
    reports.mono (fun _ _ => id) fun _ _ => .inl
  have here := Reader.Reports.current_mem (r := r) behind
  unfold declaration
  dsimp only
  split
  · exact .inl (.parse here _)
  · split
    · exact includeDecl_fails circular behind ‹_›
    · exact own (.lift (namespaceDecl_reports harmless behind))
    · exact own (constDecl_reports harmless behind)
    · exact own (enumDecl_reports harmless wf fair behind)
    · exact own (recordDecl_reports harmless wf fair behind)
    · exact own (recordDecl_reports harmless wf fair behind)
    · exact own (recordDecl_reports harmless wf fair behind)
    · exact own (serviceDecl_reports harmless behind)
    · exact .inl (.parse here _)

end

end

/-- What is left to read of a file is at its end. -/
theorem Reads.rest_suffix {r : Reader} {origin : SourceRef} {load : Loader} {a b : Place}
    (reads : Reads r origin load a b) (steady : load.Steady)
    (start : a.model.Building a.state.set) : b.rest <:+ a.rest := by
  induction reads with
  | refl => exact List.suffix_refl _
  | tail front step ih =>
      cases step with
      | intro read =>
          have building := (Reads.building front steady start).1
          -- Causes of errors do not matter here, so all of them are allowed.
          exact (skipSeparator_suffix _).trans ((declaration_fails (B := fun _ => True)
            (fun _ _ => trivial) (fun _ _ _ _ _ => trivial) building.wf
            (fun _ _ _ _ _ _ => trivial) ih).ok read)

end Idl

end IdlGen
