import IdlGen.Idl.Document
import IdlGen.Proofs.Idl.Grammar
import IdlGen.Proofs.Idl.Likeness
import IdlGen.Proofs.Idl.Parallel

/-!
# The grammar side by side

Every rule of the grammar, run on the same tokens in the two sets of a twin, reads the same on both
sides: the same containers are asked for, the same types are registered, and declarations that are
alike are added to models that are alike. Only the rule for the name of a type can leak.
-/

namespace IdlGen

open LoadM

/-- Words hold no mark of a container's name. -/
def Lexed (toks : List Token) : Prop := ∀ t ∈ toks, t.kind = .word → Plain t.text.toList

theorem Lexed.suffix {toks rest : List Token} (lexed : Lexed toks) (suffix : rest <:+ toks) :
    Lexed rest :=
  fun t member => lexed t (suffix.subset member)

@[simp, grind =]
theorem Model.name_addInclude (m : Model) (name : String) : (m.addInclude name).name = m.name := by
  unfold Model.addInclude
  split <;> rfl

theorem Twin.Drafts.findsLike {X I : Ty → Prop} {w : Twin} {m m' : Model}
    (drafts : w.Drafts X I m m') : Idl.FindsLike w.stamps (m.lookup w.left) (m'.lookup w.right) :=
  drafts.like.lookup drafts.alike.models

namespace Idl

variable {X I : Ty → Prop} {w : Twin} {m m' : Model} {r : Reader} {declaring : Declaring}
variable {toks : List Token}

/-- A name stands for types that are alike, or it is refused on both sides, or it leaks. -/
theorem namedType_agree (drafts : w.Drafts X I m m') {t : Token} (plain : Plain t.text.toList) :
    Agree (w.Shares m.name) (namedType r m declaring t w.left)
        (namedType r m' declaring t w.right) ∨
      ∃ e, namedType r m declaring t w.left = .error e ∧ Twin.Leak X e := by
  obtain ⟨alike, setting, _, like⟩ := drafts
  unfold namedType
  rw [funext like.qname]
  cases found : m.lookupType w.left t.text with
  | some ty =>
      obtain ⟨ty', found', shares⟩ := alike.lookupType_some setting like.name plain found
      rw [found']
      exact .inl (.ok shares)
  | none =>
      rcases alike.lookupType_none setting like.name plain found with missing | extra
      · rw [missing]
        refine .inl ?_
        dsimp only
        split
        · split <;> exact .error _
        · exact .error _
      · obtain ⟨u, isExtra, held, leaf, qname⟩ := extra
        have unknown : Twin.Leak X (.parse r.file t.pos (.unknownType t.text)) :=
          ⟨u, r.file, t.pos, isExtra, leaf, .inl (by rw [qname])⟩
        refine .inr ?_
        dsimp only
        split
        · rename_i keyword name
          split
          · rename_i itself
            have named : u.qname = name := by
              rw [← qname] at plain itself
              rcases Bool.or_eq_true_iff.mp itself with same | same
              · exact of_decide_eq_true same
              · exact setting.qname_eq isExtra (alike.wf'.identifier held) plain
                  (of_decide_eq_true same)
            exact ⟨_, rfl, u, r.file, t.pos, isExtra, leaf, .inr ⟨keyword, by rw [named]⟩⟩
          · exact ⟨_, rfl, unknown⟩
        · exact ⟨_, rfl, unknown⟩

/-- A container over like types is asked for on both sides, which go on with its type. -/
theorem request_parallel {α β : Type} {model : Option String} (c c' : Container) {f : Ty → LoadM α}
    {g : Ty → LoadM β} {P : α → β → Twin → Prop} (alike : w.Alike X I)
    (setting : Twin.Setting X I model) (pairs : c.Pairwise (w.Shares model) c')
    (next : ∀ t t' w', w'.Alike X I → w'.Shares model t t' → Parallel X I (f t) (g t') P w') :
    Parallel X I (updateSet (fun s => c.request s) >>= f)
      (updateSet (fun s => c'.request s) >>= g) P w := by
  obtain ⟨R, onward, alike', shares⟩ := alike.request setting pairs
  exact .updateSet_bind onward (next _ _ _ alike' shares)

theorem typeExpr_parallel {allowVoid : Bool} (drafts : w.Drafts X I m m') (lexed : Lexed toks) :
    Parallel X I (typeExpr r m declaring allowVoid toks) (typeExpr r m' declaring allowVoid toks)
      (fun p q w' => p.Related (fun t t' => w'.Shares m.name t t' ∨
        allowVoid = true ∧ t = .void ∧ t' = .void) q) w := by
  induction h : toks.length using Nat.strongRecOn generalizing toks allowVoid w with
  | ind length ih =>
      have alike := drafts.alike
      have setting := drafts.setting
      -- Inside of brackets, `void` is not allowed.
      have elem : ∀ {inside : List Token} {w : Twin}, w.Drafts X I m m' → inside <:+ toks →
          inside.length < length → Parallel X I (typeExpr r m declaring false inside)
            (typeExpr r m' declaring false inside)
            (fun p q w' => p.Related (w'.Shares m.name) q) w := by
        intro inside w drafts suffix shorter
        refine (ih inside.length shorter drafts (lexed.suffix suffix) rfl).mono ?_
        exact fun p q w' _ _ read => { read with value := read.value.resolve_right (by simp) }
      unfold typeExpr
      split
      · exact .refuse alike
      · rename_i t rest
        have behind := List.suffix_cons t rest
        simp only [List.length_cons] at h
        split
        · exact .refuse alike
        · rename_i word
          split
          · split
            · rename_i allowed
              exact .pure alike ⟨rfl, behind, .inr ⟨allowed, rfl, rfl⟩⟩
            · exact .refuse alike
          · have byte : w.Shares m.name (.prim (.int .w8)) (.prim (.int .w8)) :=
              ⟨.prim _, alike.wf.primitive _ (by decide), alike.wf'.primitive _ (by decide),
                .word (Primitive.plain_name _)⟩
            exact .pure alike ⟨rfl, behind, .inl byte⟩
          · refine .lift_bind alike ?_
            rintro ⟨_, inside, _⟩ opened
            have suffix := (Reader.take_suffix opened).trans behind
            refine .bind (elem drafts suffix (by omega)) ?_
            rintro ⟨e, _, _⟩ ⟨e', _, _⟩ w' onward alike ⟨rfl, elemSuffix, shares⟩
            refine .lift_bind alike ?_
            rintro ⟨_, _, _⟩ closed
            refine request_parallel (.list e) (.list e') alike setting (.list shares) ?_
            intro t t' w' alike shares
            have closedSuffix := (Reader.take_suffix closed).trans elemSuffix
            exact .pure alike ⟨rfl, closedSuffix.trans suffix, .inl shares⟩
          · refine .lift_bind alike ?_
            rintro ⟨_, inside, _⟩ opened
            have suffix := (Reader.take_suffix opened).trans behind
            refine .bind (elem drafts suffix (by omega)) ?_
            rintro ⟨e, _, _⟩ ⟨e', _, _⟩ w' onward alike ⟨rfl, elemSuffix, shares⟩
            refine .lift_bind alike ?_
            rintro ⟨_, _, _⟩ closed
            refine request_parallel (.set e) (.set e') alike setting (.set shares) ?_
            intro t t' w' alike shares
            have closedSuffix := (Reader.take_suffix closed).trans elemSuffix
            exact .pure alike ⟨rfl, closedSuffix.trans suffix, .inl shares⟩
          · refine .lift_bind alike ?_
            rintro ⟨_, inside, _⟩ opened
            have suffix := (Reader.take_suffix opened).trans behind
            refine .bind (elem drafts suffix (by omega)) ?_
            rintro ⟨k, afterKey, _⟩ ⟨k', _, _⟩ w' onward alike ⟨rfl, keySuffix, key⟩
            refine .lift_bind alike ?_
            rintro ⟨_, afterComma, _⟩ separated
            have commaSuffix := ((Reader.take_suffix separated).trans keySuffix).trans suffix
            refine .bind (elem (drafts.mono onward alike) commaSuffix (by omega)) ?_
            rintro ⟨v, afterValue, _⟩ ⟨v', _, _⟩ w'' further alike ⟨rfl, valueSuffix, value⟩
            refine .lift_bind alike ?_
            rintro ⟨_, _, _⟩ closed
            refine request_parallel (.map k v) (.map k' v') alike setting
              (.map (key.mono further) value) ?_
            intro t t' w' alike shares
            have closedSuffix := (Reader.take_suffix closed).trans valueSuffix
            exact .pure alike ⟨rfl, closedSuffix.trans commaSuffix, .inl shares⟩
          · refine .getSet_bind ?_
            have plain := lexed t List.mem_cons_self (Classical.not_not.mp word)
            rcases namedType_agree drafts plain with agree | ⟨e, failed, leaks⟩
            · refine .lift_bind_like alike agree fun ty ty' shares => ?_
              exact .pure alike ⟨rfl, behind, .inl shares⟩
            · rw [failed]
              exact .leak leaks

theorem field_parallel (drafts : w.Drafts X I m m') (lexed : Lexed toks) :
    Parallel X I (field r m declaring toks) (field r m' declaring toks)
      (fun p q _ => p.Related (fun a b => a.1 = b.1 ∧ a.2.Alike b.2) q) w := by
  have alike := drafts.alike
  unfold field
  refine .lift_bind alike ?_
  rintro ⟨idToken, afterId, _⟩ readId
  refine .lift_bind alike fun id _ => .lift_bind alike ?_
  rintro ⟨_, afterColon, _⟩ readColon
  have suffix := ((requiredness_suffix afterColon).trans (Reader.take_suffix readColon)).trans
    (Reader.take_suffix readId)
  dsimp only at suffix ⊢
  generalize requiredness afterColon = mark at suffix ⊢
  obtain ⟨required, atType, _⟩ := mark
  refine .bind (typeExpr_parallel drafts (lexed.suffix suffix)) ?_
  rintro ⟨ty, afterType, _⟩ ⟨ty', _, _⟩ w' onward alike ⟨rfl, typeSuffix, read⟩
  have type := (read.resolve_right (by simp)).like
  have drafts := drafts.mono onward alike
  refine .lift_bind alike ?_
  rintro ⟨name, afterName, _⟩ readName
  refine .getSet_bind (.lift_bind_like alike (fieldDefault_agree drafts.findsLike) ?_)
  rintro ⟨default, afterDefault, _⟩ ⟨default', _, _⟩ ⟨rfl, defaultSuffix, given⟩
  refine .lift_bind alike ?_
  rintro ⟨notes, rest, _⟩ readNotes
  refine .lift_bind_like alike (Reader.blame_agree (Field.ofLiteral_alike alike.one type given)) ?_
  intro f f' field
  refine .pure alike ⟨rfl, ?_, rfl, field⟩
  exact (((annotations_suffix readNotes).trans defaultSuffix).trans
    (Reader.take_suffix readName)).trans (typeSuffix.trans suffix)

theorem fieldsUntil_parallel {close : String} {acc acc' : FieldSet Ty}
    (drafts : w.Drafts X I m m') (lexed : Lexed toks) (fields : acc.Alike acc') :
    Parallel X I (fieldsUntil r m declaring close acc toks)
      (fieldsUntil r m' declaring close acc' toks)
      (fun p q _ => p.Related FieldSet.Alike q) w := by
  induction h : toks.length using Nat.strongRecOn generalizing toks acc acc' w with
  | ind length ih =>
      unfold fieldsUntil
      split
      · rename_i skipped
        exact .pure drafts.alike ⟨rfl, skipIf?_suffix skipped, fields⟩
      · refine .bind (field_parallel drafts lexed) ?_
        rintro ⟨⟨idToken, f⟩, afterField, _⟩ ⟨⟨_, f'⟩, _, _⟩ w' onward alike
          ⟨rfl, fieldSuffix, rfl, field⟩
        refine .lift_bind_like alike (Reader.blame_agree (fields.add field)) ?_
        intro acc acc' fields
        have separated := (skipSeparator_suffix afterField).trans fieldSuffix
        dsimp only
        generalize skipSeparator afterField = next at separated ⊢
        obtain ⟨next, _⟩ := next
        refine .bind (ih next.length (by omega) (drafts.mono onward alike)
          (lexed.suffix separated) fields rfl) ?_
        rintro ⟨acc, rest, _⟩ ⟨acc', _, _⟩ w'' _ alike ⟨rfl, suffix, fields⟩
        exact .pure alike ⟨rfl, suffix.trans separated, fields⟩

/-- The models that a rule gives are still built side by side. -/
def Proceeds (X I : Ty → Prop) (p q : Parsed toks Model) (w : Twin) : Prop :=
  p.Related (w.Drafts X I) q

theorem namespaceDecl_parallel (drafts : w.Drafts X I m m') :
    Parallel X I (liftM (namespaceDecl r m toks) : LoadM _)
      (liftM (namespaceDecl r m' toks) : LoadM _) (Proceeds X I) w := by
  refine .lift drafts.alike ((namespaceDecl_agree drafts.like).mono fun p q read => ?_)
  exact { read with value := drafts.next read.value.1 read.value.2 }

theorem constDecl_parallel (drafts : w.Drafts X I m m') (lexed : Lexed toks) :
    Parallel X I (constDecl r m toks) (constDecl r m' toks) (Proceeds X I) w := by
  unfold constDecl
  refine .lift_bind drafts.alike ?_
  rintro ⟨keyword, afterKeyword, _⟩ readKeyword
  have suffix := Reader.take_suffix readKeyword
  refine .bind (typeExpr_parallel drafts (lexed.suffix suffix)) ?_
  rintro ⟨ty, afterType, _⟩ ⟨ty', _, _⟩ w' onward alike ⟨rfl, typeSuffix, read⟩
  have type := (read.resolve_right (by simp)).like
  have drafts := drafts.mono onward alike
  refine .lift_bind alike ?_
  rintro ⟨name, afterName, _⟩ readName
  refine .lift_bind alike ?_
  rintro ⟨_, afterEquals, _⟩ readEquals
  have equalsSuffix := (Reader.take_suffix readEquals).trans (Reader.take_suffix readName)
  refine .getSet_bind (.lift_bind_like alike (literal_agree drafts.findsLike) ?_)
  rintro ⟨lit, rest, _⟩ ⟨lit', _, _⟩ ⟨rfl, litSuffix, like⟩
  rw [drafts.like.name]
  refine .lift_bind_like alike (Reader.blame_agree (Constant.ofLiteral_like alike.one type like)) ?_
  intro c c' constant
  refine .lift_bind_like alike
    (Reader.blame_agree (drafts.like.addConst alike.models constant)) ?_
  rintro m₁ m₁' ⟨name, like⟩
  refine .pure alike ⟨rfl, ?_, drafts.next name like⟩
  exact (litSuffix.trans equalsSuffix).trans (typeSuffix.trans suffix)

theorem enumDecl_parallel (drafts : w.Drafts X I m m') :
    Parallel X I (enumDecl r m toks) (enumDecl r m' toks) (Proceeds X I) w := by
  have alike := drafts.alike
  unfold enumDecl
  refine .lift_bind alike ?_
  rintro ⟨keyword, atName, _⟩ readKeyword
  refine .lift_bind alike ?_
  rintro ⟨name, afterName, _⟩ readName
  have nameSuffix := (Reader.take_suffix readName).trans (Reader.take_suffix readKeyword)
  have onward := Twin.Alike.onward_takeStamp w
  refine .updateSet_bind onward ?_
  have alike := alike.takeStamp
  have drafts := drafts.mono onward alike
  have builder : (EnumBuilder.new w.left.stamps.next (m.qname name.text) keyword.docs).Like
      (w.stamps.insert w.left.stamps.next w.right.stamps.next)
      (EnumBuilder.new w.right.stamps.next (m'.qname name.text) keyword.docs) :=
    ⟨Pairing.insert_self _ _ _, drafts.like.qname _, .nil, rfl, rfl⟩
  refine .lift_bind alike ?_
  rintro ⟨_, inside, _⟩ readBrace
  refine .lift_bind_like alike (enumElements_agree builder) ?_
  rintro ⟨b, afterBody, _⟩ ⟨b', _, _⟩ ⟨rfl, bodySuffix, builder⟩
  refine .lift_bind alike ?_
  rintro ⟨_, rest, _⟩ readNotes
  have suffix := ((annotations_suffix readNotes).trans bodySuffix).trans
    ((Reader.take_suffix readBrace).trans nameSuffix)
  refine .getSet_bind (.lift_bind_like alike (Reader.blame_agree
    (drafts.addEnum builder.build (identifier_eq_ok readName))) ?_)
  rintro ⟨_, m₁, s⟩ ⟨_, m₁', s'⟩ ⟨R, onward, drafts⟩
  exact .setSet_bind onward (.pure drafts.alike ⟨rfl, suffix, drafts⟩)

theorem recordDecl_parallel {kind : RecordKind} (drafts : w.Drafts X I m m')
    (lexed : Lexed toks) :
    Parallel X I (recordDecl r m kind toks) (recordDecl r m' kind toks) (Proceeds X I) w := by
  have alike := drafts.alike
  unfold recordDecl
  refine .lift_bind alike ?_
  rintro ⟨keyword, atName, _⟩ readKeyword
  refine .lift_bind alike ?_
  rintro ⟨name, afterName, _⟩ readName
  refine .lift_bind alike ?_
  rintro ⟨_, inside, _⟩ readBrace
  have suffix := ((Reader.take_suffix readBrace).trans (Reader.take_suffix readName)).trans
    (Reader.take_suffix readKeyword)
  have none : FieldSet.Alike ⟨m.qname name.text, []⟩ ⟨m'.qname name.text, []⟩ :=
    ⟨drafts.like.qname _, .nil⟩
  refine .bind (fieldsUntil_parallel drafts (lexed.suffix suffix) none) ?_
  rintro ⟨fields, afterBody, _⟩ ⟨fields', _, _⟩ w' onward alike ⟨rfl, bodySuffix, like⟩
  refine .lift_bind alike ?_
  rintro ⟨notes, rest, _⟩ readNotes
  have body : Record.Alike ⟨fields, kind = .union, notes, keyword.docs⟩
      ⟨fields', kind = .union, notes, keyword.docs⟩ := ⟨like.view, rfl, rfl, rfl⟩
  refine .getSet_bind (.lift_bind_like alike (Reader.blame_agree
    ((drafts.mono onward alike).addRecord body (identifier_eq_ok readName))) ?_)
  rintro ⟨_, m₁, s⟩ ⟨_, m₁', s'⟩ ⟨R, onward, drafts⟩
  have restSuffix := ((annotations_suffix readNotes).trans bodySuffix).trans suffix
  exact .setSet_bind onward (.pure drafts.alike ⟨rfl, restSuffix, drafts⟩)

theorem throwsClause_parallel {owner : String} (drafts : w.Drafts X I m m') (lexed : Lexed toks) :
    Parallel X I (throwsClause r m owner toks) (throwsClause r m' owner toks)
      (fun p q _ => p.Related FieldSet.Alike q) w := by
  unfold throwsClause
  split
  · exact .pure drafts.alike ⟨rfl, List.suffix_rfl, .nil owner⟩
  · rename_i skipped
    refine .lift_bind drafts.alike ?_
    rintro ⟨_, inside, _⟩ readParenthesis
    have suffix := (Reader.take_suffix readParenthesis).trans (skipIf?_suffix skipped)
    refine .bind (fieldsUntil_parallel drafts (lexed.suffix suffix) (.nil owner)) ?_
    rintro ⟨fields, rest, _⟩ ⟨fields', _, _⟩ w' _ alike ⟨rfl, fieldsSuffix, like⟩
    exact .pure alike ⟨rfl, fieldsSuffix.trans suffix, like⟩

theorem function_parallel {service : String} (drafts : w.Drafts X I m m') (lexed : Lexed toks) :
    Parallel X I (function r m service toks) (function r m' service toks)
      (fun p q _ => p.Related (fun a b => a.1 = b.1 ∧ a.2.Alike b.2) q) w := by
  have markSuffix := onewayMark_suffix toks
  unfold function
  dsimp only
  generalize onewayMark toks = mark at markSuffix ⊢
  obtain ⟨oneway, atResult, _⟩ := mark
  refine .bind (typeExpr_parallel drafts (lexed.suffix markSuffix)) ?_
  rintro ⟨result, afterResult, _⟩ ⟨result', _, _⟩ w₁ onward alike ⟨rfl, resultSuffix, read⟩
  have like : result.Like w₁.stamps result' := by
    rcases read with shares | ⟨_, rfl, rfl⟩
    · exact shares.like
    · exact .prim _
  have drafts := drafts.mono onward alike
  refine .lift_bind alike ?_
  rintro ⟨name, afterName, _⟩ readName
  have nameSuffix := (Reader.take_suffix readName).trans (resultSuffix.trans markSuffix)
  have isVoid : result'.isVoid = result.isVoid := by simp only [Ty.isVoid, like.category]
  dsimp only
  rw [isVoid]
  split
  · exact .refuse_bind alike
  · refine .lift_bind alike ?_
    rintro ⟨_, inside, _⟩ readParenthesis
    have insideSuffix := (Reader.take_suffix readParenthesis).trans nameSuffix
    refine .bind (fieldsUntil_parallel drafts (lexed.suffix insideSuffix) (.nil _)) ?_
    rintro ⟨args, afterArgs, _⟩ ⟨args', _, _⟩ w₂ onward alike ⟨rfl, argsSuffix, argsAlike⟩
    have argsSuffix := argsSuffix.trans insideSuffix
    refine .bind (throwsClause_parallel (drafts.mono onward alike) (lexed.suffix argsSuffix)) ?_
    rintro ⟨throws, afterThrows, _⟩ ⟨throws', _, _⟩ w₃ onward alike
      ⟨rfl, throwsSuffix, throwsAlike⟩
    have others : Option.Rel Field.Alike (throws.fields.find? (!·.type.isException))
        (throws'.fields.find? (!·.type.isException)) :=
      find?_rel throwsAlike.fields fun _ _ field => by
        simp only [Ty.isException, field.type.category]
    dsimp only
    generalize throws.fields.find? (!·.type.isException) = thrown at others ⊢
    generalize throws'.fields.find? (!·.type.isException) = thrown' at others ⊢
    cases others with
    | some field =>
        dsimp only
        rw [field.type.name]
        exact .refuse_bind alike
    | none =>
        refine .lift_bind alike ?_
        rintro ⟨_, rest, _⟩ readNotes
        have suffix := (annotations_suffix readNotes).trans (throwsSuffix.trans argsSuffix)
        exact .pure alike ⟨rfl, suffix, rfl, Function.alike_mk like argsAlike throwsAlike⟩

theorem functions_parallel {body body' : ServiceBody} (drafts : w.Drafts X I m m')
    (lexed : Lexed toks) (bodies : body.Alike body') :
    Parallel X I (functions r m body toks) (functions r m' body' toks)
      (fun p q _ => p.Related ServiceBody.Alike q) w := by
  induction h : toks.length using Nat.strongRecOn generalizing toks body body' w with
  | ind length ih =>
      unfold functions
      split
      · rename_i skipped
        exact .pure drafts.alike ⟨rfl, skipIf?_suffix skipped, bodies⟩
      · rw [bodies.qname]
        refine .bind (function_parallel drafts lexed) ?_
        rintro ⟨⟨name, f⟩, afterFunction, _⟩ ⟨⟨_, f'⟩, _, _⟩ w' onward alike
          ⟨rfl, functionSuffix, rfl, function⟩
        refine .lift_bind_like alike (Reader.blame_agree (bodies.addFunction function)) ?_
        intro body body' bodies
        have separated := (skipSeparator_suffix afterFunction).trans functionSuffix
        dsimp only
        generalize skipSeparator afterFunction = next at separated ⊢
        obtain ⟨next, _⟩ := next
        refine .bind (ih next.length (by omega) (drafts.mono onward alike)
          (lexed.suffix separated) bodies rfl) ?_
        rintro ⟨body, rest, _⟩ ⟨body', _, _⟩ w'' _ alike ⟨rfl, suffix, bodies⟩
        exact .pure alike ⟨rfl, suffix.trans separated, bodies⟩

theorem serviceDecl_parallel (drafts : w.Drafts X I m m') (lexed : Lexed toks) :
    Parallel X I (serviceDecl r m toks) (serviceDecl r m' toks) (Proceeds X I) w := by
  have alike := drafts.alike
  unfold serviceDecl
  refine .lift_bind alike ?_
  rintro ⟨keyword, atName, _⟩ readKeyword
  refine .lift_bind alike ?_
  rintro ⟨name, afterName, _⟩ readName
  have nameSuffix := (Reader.take_suffix readName).trans (Reader.take_suffix readKeyword)
  refine .getSet_bind (.lift_bind_like alike (extendsClause_agree alike.models drafts.like) ?_)
  rintro ⟨parent, afterParent, _⟩ ⟨parent', _, _⟩ ⟨rfl, parentSuffix, parents⟩
  refine .lift_bind alike ?_
  rintro ⟨_, inside, _⟩ readBrace
  have suffix := (Reader.take_suffix readBrace).trans (parentSuffix.trans nameSuffix)
  rw [drafts.like.name]
  refine .bind (functions_parallel drafts (lexed.suffix suffix) ⟨rfl, rfl, .nil, rfl⟩) ?_
  rintro ⟨body, afterBody, _⟩ ⟨body', _, _⟩ w' onward alike ⟨rfl, bodySuffix, bodies⟩
  have drafts := drafts.mono onward alike
  refine .lift_bind alike ?_
  rintro ⟨_, rest, _⟩ readNotes
  refine .getSet_bind (.lift_bind_like alike (Reader.blame_agree
    (drafts.like.addService alike.models (Service.make_alike bodies parents))) ?_)
  rintro m₁ m₁' ⟨name, like⟩
  refine .pure alike ⟨rfl, ?_, drafts.next name like⟩
  exact ((annotations_suffix readNotes).trans bodySuffix).trans suffix

/-- Loaders that end alike. -/
def Loader.Parallel (X I : Ty → Prop) (load load' : Loader) : Prop :=
  ∀ source w, w.Alike X I → LoadM.Parallel X I (load source) (load' source) (fun _ _ _ => True) w

variable {origin : SourceRef} {load load' : Loader}

theorem includeDecl_parallel (loaders : load.Parallel X I load') (drafts : w.Drafts X I m m') :
    Parallel X I (includeDecl r origin load m toks) (includeDecl r origin load' m' toks)
      (Proceeds X I) w := by
  have alike := drafts.alike
  unfold includeDecl
  refine .lift_bind alike ?_
  rintro ⟨keyword, afterKeyword, _⟩ readKeyword
  refine .lift_bind alike ?_
  rintro ⟨pathToken, rest, _⟩ readPath
  have suffix := (Reader.take_suffix readPath).trans (Reader.take_suffix readKeyword)
  refine .lift_bind alike fun path _ => ?_
  dsimp only
  split
  · exact .refuse alike
  · rename_i name _
    refine .getSet_bind ?_
    rw [alike.isPending, alike.isLoaded]
    have included {w : Twin} (drafts : w.Drafts X I m m') :
        w.Drafts X I (m.addInclude name) (m'.addInclude name) :=
      drafts.next (Model.name_addInclude m name) (drafts.like.addInclude name)
    split
    · exact .refuse_bind alike
    · split
      · refine .tell_bind (.bind (loaders _ w alike) fun _ _ w' onward alike _ => ?_)
        exact .pure alike ⟨rfl, suffix, included (drafts.mono onward alike)⟩
      · exact .pure alike ⟨rfl, suffix, included drafts⟩

theorem declaration_parallel (loaders : load.Parallel X I load') (drafts : w.Drafts X I m m')
    (lexed : Lexed toks) :
    Parallel X I (declaration r origin load m toks) (declaration r origin load' m' toks)
      (Proceeds X I) w := by
  have alike := drafts.alike
  unfold declaration
  dsimp only
  split
  · exact .refuse alike
  · split
    · exact includeDecl_parallel loaders drafts
    · exact namespaceDecl_parallel drafts
    · exact constDecl_parallel drafts lexed
    · exact enumDecl_parallel drafts
    · exact recordDecl_parallel drafts lexed
    · exact recordDecl_parallel drafts lexed
    · exact recordDecl_parallel drafts lexed
    · exact serviceDecl_parallel drafts lexed
    · exact .refuse alike

/-- A file is read alike on both sides, up to a leak. -/
theorem document_parallel (loaders : load.Parallel X I load') (drafts : w.Drafts X I m m')
    (lexed : Lexed toks) :
    Parallel X I (document r origin load m toks) (document r origin load' m' toks)
      (fun m₁ m₁' w' => w'.Drafts X I m₁ m₁') w := by
  induction h : toks.length using Nat.strongRecOn generalizing toks m m' w with
  | ind length ih =>
      unfold document
      split
      · exact .pure drafts.alike drafts
      · refine .bind (declaration_parallel loaders drafts lexed) ?_
        rintro ⟨m₁, after, _⟩ ⟨m₁', _, _⟩ w' onward alike ⟨rfl, suffix, drafts⟩
        have separated := (skipSeparator_suffix after).trans suffix
        dsimp only at separated ⊢
        generalize skipSeparator after = next at separated ⊢
        obtain ⟨next, _⟩ := next
        exact ih next.length (by omega) drafts (lexed.suffix separated) rfl

end Idl

end IdlGen
