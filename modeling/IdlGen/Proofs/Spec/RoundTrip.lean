import IdlGen.Proofs.Literal.Quoting
import IdlGen.Proofs.Spec.Derivation

/-!
# Specs as text and back

A tree without numbers is written as tokens: words for its other scalars, quotes around its strings
and keys, a comma or none after each member and item. With blanks between the tokens this is a text
of a spec, with or without the outer braces, and reading it gives the tree back.
-/

namespace IdlGen

namespace Tree

mutual

/-- Whether no number is inside, and all strings and keys are quotable. -/
def isTextual : Tree → Bool
  | null => true
  | bool _ => true
  | int _ => false
  | double _ => false
  | str text => Text.isQuotable text
  | list xs => isTextualItems xs
  | object ms => isTextualMembers ms

def isTextualItems : List Tree → Bool
  | [] => true
  | t :: rest => isTextual t && isTextualItems rest

def isTextualMembers : List (String × Tree) → Bool
  | [] => true
  | (key, t) :: rest => Text.isQuotable key && isTextual t && isTextualMembers rest

end

@[simp]
theorem isTextual_list_iff {xs : List Tree} : (list xs).isTextual ↔ ∀ x ∈ xs, x.isTextual := by
  rw [isTextual]
  induction xs with
  | nil => simp [isTextualItems]
  | cons x xs ih => simp [isTextualItems, ih]

@[simp] theorem isTextual_object_iff {ms : Section} :
    (object ms).isTextual ↔ ∀ m ∈ ms, Text.isQuotable m.1 ∧ m.2.isTextual := by
  rw [isTextual]
  induction ms with
  | nil => simp [isTextualMembers]
  | cons m ms ih => simp [isTextualMembers, ih]

end Tree

namespace Spec

/-- The texts of the tokens of a phrase, with a comma or none after each member and item. -/
inductive Written : Phrase → List String → Prop
  | null : Written (.value .null) ["null"]
  | yes : Written (.value (.bool true)) ["true"]
  | no : Written (.value (.bool false)) ["false"]
  | str (text : String) : Written (.value (.str text)) [Text.quote text]
  | list {xs : List Tree} {ws : List String} (inside : Written (.items xs) ws) :
      Written (.value (.list xs)) ("[" :: (ws ++ ["]"]))
  | object {ms : Section} {ws : List String} (inside : Written (.members ms) ws) :
      Written (.value (.object ms)) ("\x7b" :: (ws ++ ["\x7d"]))
  | noMember : Written (.members []) []
  | member {key : String} {v : Tree} {ms : Section} {value comma ws : List String}
      (first : Written (.value v) value) (ends : comma = [] ∨ comma = [","])
      (more : Written (.members ms) ws) :
      Written (.members ((key, v) :: ms)) (Text.quote key :: ":" :: (value ++ (comma ++ ws)))
  | noItem : Written (.items []) []
  | item {x : Tree} {xs : List Tree} {value comma ws : List String}
      (first : Written (.value x) value) (ends : comma = [] ∨ comma = [","])
      (more : Written (.items xs) ws) : Written (.items (x :: xs)) (value ++ (comma ++ ws))

theorem exists_written_items {xs : List Tree}
    (each : ∀ x ∈ xs, ∃ ws, Written (.value x) ws) : ∃ ws, Written (.items xs) ws := by
  induction xs with
  | nil => exact ⟨[], .noItem⟩
  | cons x xs ih =>
      obtain ⟨value, first⟩ := each x List.mem_cons_self
      obtain ⟨ws, more⟩ := ih fun y listed => each y (List.mem_cons_of_mem _ listed)
      exact ⟨_, .item first (.inl rfl) more⟩

theorem exists_written_members {ms : Section}
    (each : ∀ m ∈ ms, ∃ ws, Written (.value m.2) ws) : ∃ ws, Written (.members ms) ws := by
  induction ms with
  | nil => exact ⟨[], .noMember⟩
  | cons m ms ih =>
      obtain ⟨value, first⟩ := each m List.mem_cons_self
      obtain ⟨ws, more⟩ := ih fun y listed => each y (List.mem_cons_of_mem _ listed)
      exact ⟨_, .member first (.inl rfl) more⟩

/-- Every tree without numbers can be written. -/
theorem exists_written {t : Tree} (textual : t.isTextual) : ∃ ws, Written (.value t) ws := by
  induction size : sizeOf t using Nat.strongRecOn generalizing t with
  | ind n ih =>
      cases t with
      | null => exact ⟨_, .null⟩
      | bool b => cases b with
        | true => exact ⟨_, .yes⟩
        | false => exact ⟨_, .no⟩
      | int _ | double _ => cases textual
      | str text => exact ⟨_, .str text⟩
      | list xs =>
          have each : ∀ x ∈ xs, ∃ ws, Written (.value x) ws := by
            intro x listed
            have smaller := List.sizeOf_lt_of_mem listed
            rw [Tree.list.sizeOf_spec] at size
            exact ih _ (by omega) (Tree.isTextual_list_iff.mp textual x listed) rfl
          obtain ⟨ws, inside⟩ := exists_written_items each
          exact ⟨_, .list inside⟩
      | object ms =>
          have each : ∀ m ∈ ms, ∃ ws, Written (.value m.2) ws := by
            rintro ⟨key, v⟩ listed
            have smaller := List.sizeOf_lt_of_mem listed
            rw [Prod.mk.sizeOf_spec] at smaller
            rw [Tree.object.sizeOf_spec] at size
            exact ih (sizeOf v) (by omega) (Tree.isTextual_object_iff.mp textual _ listed).2 rfl
          obtain ⟨ws, inside⟩ := exists_written_members each
          exact ⟨_, .object inside⟩

variable {ws : List String} {text : String}

/-- The texts are tokens of a spec, and tokens with these texts have the form. -/
abbrev Spans := Language.specs.Spans

theorem Spans.mark (listed : text ∈ Language.specs.marks) :
    Spans [text] fun toks => ∃ t, toks = [t] ∧ t.Mark text := Language.Spans.mark listed

theorem Spans.optionalComma (ends : ws = [] ∨ ws = [","]) : Spans ws OptionalComma := by
  rcases ends with rfl | rfl
  · exact .nothing .absent
  · refine (mark (by decide)).mono ?_
    rintro toks ⟨t, rfl, comma⟩
    exact .present comma

theorem Spans.word {tree : Tree} (listed : text ∈ ["null", "true", "false"])
    (means : BareWord text tree) : Spans [text] fun toks => Derives toks (.value tree) := by
  refine (Language.Spans.word listed).mono ?_
  rintro toks ⟨t, rfl, kind, rfl⟩
  exact .word kind means

/-- A phrase all of whose trees can be written and repeat no key. -/
def Phrase.Proper : Phrase → Prop
  | .value tree => tree.isTextual ∧ tree.isKeyed
  | .members ms => ∀ m ∈ ms, Text.isQuotable m.1 ∧ m.2.isTextual ∧ m.2.isKeyed
  | .items xs => ∀ x ∈ xs, x.isTextual ∧ x.isKeyed

/-- Members without repeated keys make the section that they are. -/
theorem collects_self {ms : Section} (nodup : (ms.map Prod.fst).Nodup) :
    Section.Collects ms ms := by
  constructor
  · generalize ms.map Prod.fst = keys at nodup
    induction keys with
    | nil => rfl
    | cons key keys ih =>
        obtain ⟨fresh, nodup⟩ := List.nodup_cons.mp nodup
        have others : keys.filter (fun k => !k == key) = keys := by
          refine List.filter_eq_self.mpr fun k listed => ?_
          have other : k ≠ key := fun same => fresh (same ▸ listed)
          simpa using other
        rw [List.eraseDups_cons, others, ← ih nodup]
  · intro m listed
    obtain ⟨front, back, rfl⟩ := List.append_of_mem listed
    refine ⟨front, back, rfl, ?_⟩
    rw [List.map_append, List.map_cons] at nodup
    exact (List.nodup_cons.mp nodup.of_append_right).1

/-- What is written is derived. -/
theorem Written.spans {phrase : Phrase} {ws : List String} (written : Written phrase ws)
    (proper : phrase.Proper) : Spans ws fun toks => Derives toks phrase := by
  induction written with
  | null => exact .word (by decide) .null
  | yes => exact .word (by decide) .yes
  | no => exact .word (by decide) .no
  | str text =>
      refine (Spelling.spans_quote proper.1).mono ?_
      rintro toks ⟨t, rfl, string, spelled⟩
      exact .string string spelled
  | @list xs ws inside ih =>
      have items : ∀ x ∈ xs, x.isTextual ∧ x.isKeyed := fun x listed =>
        ⟨Tree.isTextual_list_iff.mp proper.1 x listed, Tree.isKeyed_list_iff.mp proper.2 x listed⟩
      refine (Language.Spans.enclosed (by decide) (by decide) (ih items)).mono ?_
      rintro toks ⟨opening, front, closing, rfl, opens, derives, closes⟩
      exact .list opens derives closes
  | @object ms ws inside ih =>
      obtain ⟨nodup, keyed⟩ := Tree.isKeyed_object_iff.mp proper.2
      have members : ∀ m ∈ ms, Text.isQuotable m.1 ∧ m.2.isTextual ∧ m.2.isKeyed := by
        intro m listed
        obtain ⟨quotable, textual⟩ := Tree.isTextual_object_iff.mp proper.1 m listed
        exact ⟨quotable, textual, keyed m listed⟩
      refine (Language.Spans.enclosed (by decide) (by decide) (ih members)).mono ?_
      rintro toks ⟨opening, front, closing, rfl, opens, derives, closes⟩
      exact .object opens derives closes (collects_self nodup)
  | noMember => exact .nothing .noMember
  | member first ends more ihFirst ihMore =>
      obtain ⟨quotable, value⟩ := proper _ List.mem_cons_self
      have others := ihMore fun m listed => proper m (List.mem_cons_of_mem _ listed)
      have colon : Spans [":"] fun toks => ∃ t, toks = [t] ∧ t.Mark ":" := .mark (by decide)
      have pieces := (Spelling.spans_quote quotable).append (colon.append
        ((ihFirst value).append ((Spans.optionalComma ends).append others)))
      refine pieces.mono ?_
      rintro toks ⟨_, _, rfl, ⟨t, rfl, string, spelled⟩, _, _, rfl, ⟨u, rfl, follows⟩, _, _, rfl,
        derives, _, _, rfl, comma, derivesMore⟩
      have derived := Derives.member (.string string spelled) follows derives comma derivesMore
      exact derived
  | noItem => exact .nothing .noItem
  | item first ends more ihFirst ihMore =>
      have others := ihMore fun x listed => proper x (List.mem_cons_of_mem _ listed)
      have pieces := (ihFirst (proper _ List.mem_cons_self)).append
        ((Spans.optionalComma ends).append others)
      refine pieces.mono ?_
      rintro toks ⟨_, _, rfl, derives, _, _, rfl, comma, derivesMore⟩
      exact .item derives comma derivesMore

/-- Texts that span a spec, with any blanks between them, are read as it. -/
theorem Spans.parse {s : Section} {ws : List String} {text : String}
    (spans : Spans ws fun toks => DerivesRoot toks s)
    (spaced : Language.Spaced (ws.map String.toList) text.toList) (file : String) :
    parse file text = .ok s := by
  obtain ⟨ts, tokenized, derived⟩ := spans.tokenizeFile spaced file
  change (tokenizeFile .spec file text >>= _) = _
  rw [show tokenizeFile .spec file text = .ok ts from tokenized]
  exact derived.read _

/-- A tree is read back from its text. An object without numbers that repeats no key can be written,
and in whatever way it is written, with a comma or none after each member and item, with braces
around it or none, and with any blanks between the tokens, reading the text gives the object, its
members in their order. -/
theorem parse_written {ms : Section} (keyed : ms.Keyed) (textual : (Tree.object ms).isTextual) :
    (∃ ws, Written (.members ms) ws) ∧
    ∀ ws, Written (.members ms) ws → ∀ texts, texts = ws ∨ texts = "\x7b" :: (ws ++ ["\x7d"]) →
      ∀ file text, Language.Spaced (texts.map String.toList) text.toList →
        parse file text = .ok ms := by
  obtain ⟨nodup, values⟩ := Tree.isKeyed_object_iff.mp keyed
  have each := Tree.isTextual_object_iff.mp textual
  constructor
  · exact exists_written_members fun m listed => exists_written (each m listed).2
  · intro ws written texts braces file text spaced
    have proper : (Phrase.members ms).Proper := fun m listed =>
      ⟨(each m listed).1, (each m listed).2, values m listed⟩
    have inside := written.spans proper
    have collects := collects_self nodup
    refine Spans.parse ?_ spaced file
    rcases braces with rfl | rfl
    · exact inside.mono fun toks derives => .bare derives collects
    · refine ((Spans.mark (by decide)).append (inside.append (Spans.mark (by decide)))).mono ?_
      rintro toks ⟨_, _, rfl, ⟨opening, rfl, opens⟩, _, _, rfl, derives, closing, rfl, closes⟩
      exact .braced opens derives closes collects

/-- Strings that look like a word, a mark and a comment. -/
theorem parse_written_lookalikes :
    parse "s" "\x7b \"//\" : [ \"true\" , true \x7b \x7d ] \"\\n\" : \"\x7d\" , \x7d" =
      .ok [("//", .list [.str "true", .bool true, .object []]), ("\n", .str "\x7d")] := by
  have written : Written
      (.members [("//", .list [.str "true", .bool true, .object []]), ("\n", .str "\x7d")]) _ :=
    .member (.list (.item (.str "true") (.inr rfl) (.item .yes (.inl rfl)
      (.item (.object .noMember) (.inl rfl) .noItem)))) (.inl rfl)
      (.member (.str "\x7d") (.inr rfl) .noMember)
  refine (parse_written (by decide) (by decide)).2 _ written _ (.inr rfl) "s" _ ?_
  convert Language.spaced_intercalate _ using 1
  decide +kernel

end Spec

end IdlGen
