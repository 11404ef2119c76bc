import IdlGen.Proofs.Literal.Strings
import IdlGen.Proofs.Model.Registry
import IdlGen.Proofs.Token.Reading
import IdlGen.Proofs.Tree.Sections
import IdlGen.Spec.Grammar
import Mathlib.Data.List.Induction

/-!
# The grammar of specs

The tokens of a spec derive a tree by the rules of a grammar, in which a comma after a member or an
item may be left out, and so may the outer braces. The reader accepts exactly what can be derived,
and gives the tree that is derived; what it refuses, it refuses at one of the tokens.
-/

namespace IdlGen

namespace Section

variable {ms : List (String × Tree)} {s s' : Section}

/-- The section that members make: their keys in the order in which they first come, each with the
last of its values. -/
structure Collects (ms : List (String × Tree)) (s : Section) : Prop where
  keys : s.map Prod.fst = (ms.map Prod.fst).eraseDups
  last : ∀ m ∈ s, ∃ front back, ms = front ++ m :: back ∧ m.1 ∉ back.map Prod.fst

/-- The last of the members with a key is one of them. -/
theorem eq_of_last {m m' : String × Tree} {front front' back back' : List (String × Tree)}
    (same : front ++ m :: back = front' ++ m' :: back') (key : m.1 = m'.1)
    (last : m.1 ∉ back.map Prod.fst) (last' : m'.1 ∉ back'.map Prod.fst) : m = m' := by
  rcases List.append_eq_append_iff.mp same with ⟨between, _, tail⟩ | ⟨between, _, tail⟩
  · cases between with
    | nil => exact (List.cons.inj tail).1
    | cons x between =>
        have inside := (List.cons.inj tail).2
        refine absurd ?_ last
        rw [key, inside]
        exact List.mem_map_of_mem (by simp)
  · cases between with
    | nil => exact (List.cons.inj tail).1.symm
    | cons x between =>
        have inside := (List.cons.inj tail).2
        refine absurd ?_ last'
        rw [← key, inside]
        exact List.mem_map_of_mem (by simp)

theorem eq_of_keys (keys : s.map Prod.fst = s'.map Prod.fst)
    (values : ∀ m ∈ s, ∀ m' ∈ s', m.1 = m'.1 → m = m') : s = s' := by
  induction s generalizing s' with
  | nil => exact (List.map_eq_nil_iff.mp keys.symm).symm
  | cons m s ih =>
      cases s' with
      | nil => cases keys
      | cons m' s' =>
          obtain ⟨key, keys⟩ := List.cons.inj keys
          have first := values m List.mem_cons_self m' List.mem_cons_self key
          have rest := ih keys fun x member x' member' =>
            values x (List.mem_cons_of_mem _ member) x' (List.mem_cons_of_mem _ member')
          rw [first, rest]

/-- Members make one section. -/
theorem Collects.unique (collects : Collects ms s) (collects' : Collects ms s') : s = s' := by
  apply eq_of_keys (collects.keys.trans collects'.keys.symm)
  intro m member m' member' key
  obtain ⟨front, back, split, last⟩ := collects.last m member
  obtain ⟨front', back', split', last'⟩ := collects'.last m' member'
  exact eq_of_last (split.symm.trans split') key last last'

/-- Writing members one after the other collects them. -/
theorem collects_ofMembers (ms : List (String × Tree)) :
    Collects ms (ofMembers ms) ∧ ((ofMembers ms).map Prod.fst).Nodup := by
  induction ms using List.reverseRecOn with
  | nil => exact ⟨⟨rfl, fun m member => absurd member List.not_mem_nil⟩, List.nodup_nil⟩
  | append_singleton ms m ih =>
      obtain ⟨key, value⟩ := m
      obtain ⟨collects, nodup⟩ := ih
      have written : ofMembers (ms ++ [(key, value)]) = (ofMembers ms).insert key value :=
        List.foldl_append
      rw [written]
      refine ⟨⟨?_, fun m member => ?_⟩, nodup_insert nodup⟩
      · rw [map_fst_insert, collects.keys, List.map_append, List.eraseDups_append]
        by_cases known : key ∈ ms.map Prod.fst
        · simp [List.mem_eraseDups, List.removeAll, known]
        · simp [List.mem_eraseDups, List.removeAll, List.eraseDups_cons, known]
      · have read := get?_of_mem (nodup_insert nodup) member
        rw [get?_insert] at read
        split at read
        · next here =>
            cases read
            exact ⟨ms, [], by rw [← here], List.not_mem_nil⟩
        · next other =>
            obtain ⟨front, back, rfl, last⟩ := collects.last m (mem_of_get? read)
            refine ⟨front, back ++ [(key, value)], by simp, ?_⟩
            simpa [other] using last

end Section

namespace Spec

open Spelling (Spelled)

/-- What a bare word stands for. -/
inductive BareWord : String → Tree → Prop
  | yes : BareWord "true" (.bool true)
  | no : BareWord "false" (.bool false)
  | null : BareWord "null" .null
  | other {word : String} (other : word ∉ ["true", "false", "null"]) : BareWord word (.str word)

/-- The token is a key. -/
inductive IsKey : Token → String → Prop
  | word {t : Token} (word : t.kind = .word) : IsKey t t.text
  | string {t : Token} {text : String} (string : t.kind = .string) (spelled : Spelled t.text text) :
      IsKey t text

/-- A comma or nothing. -/
inductive OptionalComma : List Token → Prop
  | absent : OptionalComma []
  | present {t : Token} (comma : t.Mark ",") : OptionalComma [t]

/-- What a rule of the grammar derives. -/
inductive Phrase where
  | value (tree : Tree)
  | members (ms : List (String × Tree))
  | items (xs : List Tree)

/-- The tokens derive a phrase. -/
inductive Derives : List Token → Phrase → Prop
  | word {t : Token} {tree : Tree} (word : t.kind = .word) (stands : BareWord t.text tree) :
      Derives [t] (.value tree)
  | string {t : Token} {text : String} (string : t.kind = .string) (spelled : Spelled t.text text) :
      Derives [t] (.value (.str text))
  | object {opening closing : Token} {toks : List Token} {ms : List (String × Tree)} {s : Section}
      (opens : opening.Mark "\x7b") (inside : Derives toks (.members ms))
      (closes : closing.Mark "\x7d") (collects : Section.Collects ms s) :
      Derives (opening :: (toks ++ [closing])) (.value (.object s))
  | list {opening closing : Token} {toks : List Token} {xs : List Tree}
      (opens : opening.Mark "[") (inside : Derives toks (.items xs)) (closes : closing.Mark "]") :
      Derives (opening :: (toks ++ [closing])) (.value (.list xs))
  | noMember : Derives [] (.members [])
  | member {t colon : Token} {toks comma rest : List Token} {k : String} {v : Tree}
      {ms : List (String × Tree)} (key : IsKey t k) (follows : colon.Mark ":")
      (value : Derives toks (.value v)) (ends : OptionalComma comma)
      (more : Derives rest (.members ms)) :
      Derives (t :: colon :: (toks ++ (comma ++ rest))) (.members ((k, v) :: ms))
  | noItem : Derives [] (.items [])
  | item {toks comma rest : List Token} {x : Tree} {xs : List Tree}
      (value : Derives toks (.value x)) (ends : OptionalComma comma)
      (more : Derives rest (.items xs)) :
      Derives (toks ++ (comma ++ rest)) (.items (x :: xs))

/-- The tokens of a whole spec derive its members, with or without braces around them. -/
inductive DerivesRoot : List Token → Section → Prop
  | bare {toks : List Token} {ms : List (String × Tree)} {s : Section}
      (members : Derives toks (.members ms)) (collects : Section.Collects ms s) : DerivesRoot toks s
  | braced {opening closing : Token} {toks : List Token} {ms : List (String × Tree)} {s : Section}
      (opens : opening.Mark "\x7b") (inside : Derives toks (.members ms))
      (closes : closing.Mark "\x7d") (collects : Section.Collects ms s) :
      DerivesRoot (opening :: (toks ++ [closing])) s

@[simp]
theorem bareWord_iff {word : String} {tree : Tree} : BareWord word tree ↔ scalar word = tree := by
  constructor
  · intro stands
    cases stands with
    | yes | no | null => rfl
    | other other =>
        simp only [List.mem_cons, List.not_mem_nil, or_false, not_or] at other
        unfold scalar
        split <;> simp_all
  · rintro rfl
    unfold scalar
    split
    · exact .yes
    · exact .no
    · exact .null
    · next yes no null => exact .other (by simpa using ⟨yes, no, null⟩)

variable {r : Reader} {t : Token} {toks rest : List Token} {α : Type}

theorem skipComma_of_mark (comma : t.Mark ",") : (skipComma (t :: rest)).1 = rest :=
  skipOptional_pos (Token.isMark_iff.mpr comma)

theorem skipComma_of_other (other : ∀ t ∈ toks.head?, ¬ t.Mark ",") :
    (skipComma toks).1 = toks :=
  skipOptional_neg fun t first => mt Token.isMark_iff.mp (other t first)

/-- An optional comma is passed over, if none follows it. -/
theorem OptionalComma.skip {comma : List Token} (ends : OptionalComma comma)
    (other : ∀ t ∈ rest.head?, ¬ t.Mark ",") : (skipComma (comma ++ rest)).1 = rest := by
  cases ends with
  | absent => exact skipComma_of_other other
  | present comma => exact skipComma_of_mark comma

theorem key_gives {k : String} (isKey : IsKey t k) : Gives (key r (t :: rest)) k rest := by
  cases isKey with
  | word word => exact ⟨.next t.text, by simp [key, word], rfl, rfl⟩
  | string string spelled =>
      exact ⟨.next k, by simp [key, string, spelled.decode, Reader.spelled]; rfl, rfl, rfl⟩

theorem value_of_word {tree : Tree} (word : t.kind = .word) (stands : BareWord t.text tree) :
    Gives (value r (t :: rest)) tree rest := by
  rw [value]
  simp only [word, reduceCtorEq, if_false, if_true, bareWord_iff.mp stands]
  exact ⟨_, rfl, rfl, rfl⟩

theorem value_of_string {text : String} (string : t.kind = .string)
    (spelled : Spelled t.text text) : Gives (value r (t :: rest)) (.str text) rest := by
  rw [value]
  simp only [string, if_true, spelled.decode, Reader.spelled]
  exact ⟨_, rfl, rfl, rfl⟩

theorem value_of_object {s : Section} {left : List Token} (opens : t.Mark "\x7b")
    (inside : Gives (members r [] rest) s left) : Gives (value r (t :: rest)) (.object s) left := by
  obtain ⟨⟨_, _, _⟩, read, rfl, rfl⟩ := inside
  rw [value]
  simp only [opens.1, reduceCtorEq, if_false, Token.isMark_iff.mpr opens, if_true, read]
  exact ⟨_, rfl, rfl, rfl⟩

theorem value_of_list {xs : List Tree} {left : List Token} (opens : t.Mark "[")
    (inside : Gives (items r rest) xs left) : Gives (value r (t :: rest)) (.list xs) left := by
  obtain ⟨⟨_, _, _⟩, read, rfl, rfl⟩ := inside
  have other : ¬ t.isMark "\x7b" := by
    intro brace
    have same := opens.2.symm.trans (Token.isMark_iff.mp brace).2
    exact absurd same (by decide)
  rw [value]
  simp only [opens.1, reduceCtorEq, if_false, other, Token.isMark_iff.mpr opens, if_true, read]
  exact ⟨_, rfl, rfl, rfl⟩

theorem member_gives {colon : Token} {k : String} {v : Tree} {left : List Token}
    (isKey : IsKey t k) (follows : colon.Mark ":") (inside : Gives (value r rest) v left) :
    Gives (member r (t :: colon :: rest)) (k, v) (skipComma left).1 := by
  have keyed : Gives (key r (t :: colon :: rest)) k (colon :: rest) := key_gives isKey
  have taken : r.take (·.isMark ":") (.text ":") (colon :: rest) = .ok (.next colon) :=
    if_pos (Token.isMark_iff.mpr follows)
  obtain ⟨⟨_, _, _⟩, readKey, rfl, rfl⟩ := keyed
  obtain ⟨⟨_, _, _⟩, read, rfl, rfl⟩ := inside
  rw [member, readKey]
  change Gives (r.take _ _ (colon :: rest) >>= _) _ _
  rw [taken]
  change Gives (value r rest >>= _) _ _
  rw [read]
  exact ⟨_, rfl, rfl, rfl⟩

theorem members_end {s : Section} (closes : t.Mark "\x7d") :
    Gives (members r s (t :: rest)) s rest := by
  rw [members, skipIf?_pos (Token.isMark_iff.mpr closes)]
  exact ⟨_, rfl, rfl, rfl⟩

theorem members_more {s out : Section} {k : String} {v : Tree} {next left : List Token}
    (goesOn : ∀ t ∈ toks.head?, ¬ t.Mark "\x7d") (first : Gives (member r toks) (k, v) next)
    (more : Gives (members r (s.insert k v) next) out left) :
    Gives (members r s toks) out left := by
  obtain ⟨⟨_, _, _⟩, read, same, rfl⟩ := first
  obtain ⟨⟨_, _, _⟩, readMore, rfl, rfl⟩ := more
  cases same
  rw [members, skipIf?_neg fun t first => mt Token.isMark_iff.mp (goesOn t first)]
  change Gives (member r toks >>= _) _ _
  rw [read]
  change Gives (members r _ _ >>= _) _ _
  rw [readMore]
  exact ⟨_, rfl, rfl, rfl⟩

theorem items_end (closes : t.Mark "]") : Gives (items r (t :: rest)) [] rest := by
  rw [items, skipIf?_pos (Token.isMark_iff.mpr closes)]
  exact ⟨_, rfl, rfl, rfl⟩

theorem items_more {x : Tree} {xs : List Tree} {next left : List Token}
    (goesOn : ∀ t ∈ toks.head?, ¬ t.Mark "]") (first : Gives (value r toks) x next)
    (more : Gives (items r (skipComma next).1) xs left) : Gives (items r toks) (x :: xs) left := by
  obtain ⟨⟨_, _, _⟩, read, rfl, rfl⟩ := first
  obtain ⟨⟨_, _, _⟩, readMore, rfl, rfl⟩ := more
  rw [items, skipIf?_neg fun t first => mt Token.isMark_iff.mp (goesOn t first)]
  change Gives (value r toks >>= _) _ _
  rw [read]
  change Gives (items r (skipComma _).1 >>= _) _ _
  rw [readMore]
  exact ⟨_, rfl, rfl, rfl⟩

theorem rootMembers_more {s out : Section} {k : String} {v : Tree} {next : List Token}
    (first : Gives (member r (t :: rest)) (k, v) next)
    (more : rootMembers r (s.insert k v) next = .ok out) :
    rootMembers r s (t :: rest) = .ok out := by
  obtain ⟨⟨_, _, _⟩, read, same, rfl⟩ := first
  cases same
  rw [rootMembers, read]
  exact more

theorem IsKey.not_mark {k text : String} (isKey : IsKey t k) : ¬ t.Mark text := by
  intro mark
  cases isKey with
  | word word => exact absurd (mark.1.symm.trans word) (by decide)
  | string string _ => exact absurd (mark.1.symm.trans string) (by decide)

theorem Derives.ne_nil {tree : Tree} (derives : Derives toks (.value tree)) : toks ≠ [] := by
  cases derives <;> exact List.cons_ne_nil _ _

/-- The first token of a phrase is no mark, or one that opens an object or a list. -/
theorem Derives.head {phrase : Phrase} (derives : Derives toks phrase) (t : Token)
    (first : t ∈ toks.head?) {text : String} (mark : t.Mark text) : text = "\x7b" ∨ text = "[" := by
  induction derives with
  | word word _ =>
      cases first
      exact absurd (mark.1.symm.trans word) (by decide)
  | string string _ =>
      cases first
      exact absurd (mark.1.symm.trans string) (by decide)
  | object opens _ _ _ =>
      cases first
      exact .inl (mark.2.symm.trans opens.2)
  | list opens _ _ =>
      cases first
      exact .inr (mark.2.symm.trans opens.2)
  | noMember | noItem => cases first
  | member key _ _ _ _ _ _ =>
      cases first
      exact absurd mark key.not_mark
  | item value _ _ ih _ =>
      obtain ⟨c, toks, rfl⟩ := List.exists_cons_of_ne_nil value.ne_nil
      exact ih first

/-- A mark that no phrase begins with does not begin a phrase and what follows it. -/
theorem Derives.not_mark {phrase : Phrase} {back : List Token} {text : String}
    (derives : Derives toks phrase) (other : text ≠ "\x7b" ∧ text ≠ "[")
    (behind : toks = [] → ∀ t ∈ back.head?, ¬ t.Mark text) :
    ∀ t ∈ (toks ++ back).head?, ¬ t.Mark text := by
  cases toks with
  | nil => exact behind rfl
  | cons c toks =>
      intro t first mark
      rcases derives.head t first mark with brace | bracket
      · exact other.1 brace
      · exact other.2 bracket

theorem not_mark_of_mark {closing : Token} {text other : String} (mark : closing.Mark text)
    (differ : text ≠ other) : ∀ t ∈ (closing :: rest).head?, ¬ t.Mark other := by
  intro t first markToo
  cases first
  exact differ (mark.2.symm.trans markToo.2)

/-- What the rules of the reader make of the tokens of a phrase. -/
def Read (r : Reader) (toks : List Token) : Phrase → Prop
  | .value tree => ∀ rest, Gives (value r (toks ++ rest)) tree rest
  | .members ms => ∀ s : Section,
      (∀ t rest, t.Mark "\x7d" → Gives (members r s (toks ++ t :: rest)) (s.overlay ms) rest) ∧
        rootMembers r s toks = .ok (s.overlay ms)
  | .items xs => ∀ t rest, t.Mark "]" → Gives (items r (toks ++ t :: rest)) xs rest

/-- What is derived is read. -/
theorem Derives.read {phrase : Phrase} (derives : Derives toks phrase) (r : Reader) :
    Read r toks phrase := by
  induction derives with
  | word word stands => exact fun rest => value_of_word word stands
  | string string spelled => exact fun rest => value_of_string string spelled
  | @object opening closing toks ms s opens _ closes collects ih =>
      intro rest
      have made : s = Section.overlay [] ms := collects.unique (Section.collects_ofMembers ms).1
      rw [made, List.cons_append, List.append_assoc]
      exact value_of_object opens ((ih []).1 closing rest closes)
  | list opens _ closes ih =>
      intro rest
      rw [List.cons_append, List.append_assoc]
      exact value_of_list opens (ih _ rest closes)
  | noMember =>
      intro s
      exact ⟨fun t rest closes => members_end closes, by rw [rootMembers]; rfl⟩
  | noItem => exact fun t rest closes => items_end closes
  | @member t colon toks comma rest k v ms key follows _ ends more ihValue ihMore =>
      intro s
      -- A comma is passed over with the member, so what follows must not begin with another one.
      have first : ∀ back : List Token, (∀ t ∈ back.head?, ¬ t.Mark ",") →
          Gives (Spec.member r (t :: colon :: (toks ++ (comma ++ rest)) ++ back)) (k, v)
            (rest ++ back) := by
        intro back behind
        have given := member_gives key follows (ihValue (comma ++ (rest ++ back)))
        rw [ends.skip (more.not_mark (by decide) fun _ => behind)] at given
        rw [List.cons_append, List.cons_append, List.append_assoc, List.append_assoc]
        exact given
      constructor
      · intro closing back closes
        refine members_more ?_ (first _ (not_mark_of_mark closes (by decide))) ?_
        · intro u head
          cases head
          exact key.not_mark
        · exact (ihMore (s.insert k v)).1 closing back closes
      · have given := first [] (by simp)
        rw [List.append_nil, List.append_nil] at given
        exact rootMembers_more given (ihMore (s.insert k v)).2
  | @item toks comma rest x xs value ends more ihValue ihMore =>
      intro closing back closes
      have given := ihValue (comma ++ (rest ++ closing :: back))
      rw [List.append_assoc, List.append_assoc]
      refine items_more ?_ given ?_
      · exact value.not_mark (by decide) fun empty => absurd empty value.ne_nil
      · rw [ends.skip (more.not_mark (by decide) fun _ => not_mark_of_mark closes (by decide))]
        exact ihMore closing back closes

/-- A spec that is derived is read. -/
theorem DerivesRoot.read {s : Section} (derives : DerivesRoot toks s) (r : Reader) :
    root r toks = .ok s := by
  cases derives with
  | bare members collects =>
      have made := collects.unique (Section.collects_ofMembers _).1
      have unbraced : skipIf? (·.isMark "\x7b") toks = none := by
        apply skipIf?_neg
        intro t first
        cases members with
        | noMember => cases first
        | member key _ _ _ _ =>
            cases first
            exact mt Token.isMark_iff.mp key.not_mark
      rw [root, unbraced, made]
      exact (members.read r []).2
  | braced opens inside closes collects =>
      have made := collects.unique (Section.collects_ofMembers _).1
      obtain ⟨⟨_, _, _⟩, read, rfl, rfl⟩ := (inside.read r []).1 _ [] closes
      rw [root, skipIf?_pos (Token.isMark_iff.mpr opens)]
      change (members r [] _ >>= _) = _
      rw [read]
      exact congrArg Except.ok made.symm

open Spelling (Quoted)

/-- What is accepted has a property, and what is refused is refused at one of the tokens or at the
end of the text. -/
def Outcome (r : Reader) (toks : List Token) (answer : Except SourceError α) (post : α → Prop) :
    Prop :=
  (∀ a, answer = .ok a → post a) ∧
    ∀ e, answer = .error e → ∃ t ∈ toks ++ [r.eof], ∃ fault, e = .parse r.file t.pos fault

namespace Outcome

variable {β : Type} {answer : Except SourceError α} {post : α → Prop}

theorem ok {a : α} (holds : post a) : Outcome r toks (.ok a) post := by
  constructor
  · intro a same
    exact Except.ok.inj same ▸ holds
  · intro e same
    cases same

theorem fail {fault : ParseFault} (listed : t ∈ toks ++ [r.eof]) :
    Outcome r toks (r.fail t fault) post := by
  constructor
  · intro a same
    cases same
  · intro e same
    exact ⟨t, listed, fault, (Except.error.inj same).symm⟩

/-- What is read from later tokens is refused at one of them. -/
theorem later {later : List Token} (outcome : Outcome r later answer post)
    (suffix : later <:+ toks) : Outcome r toks answer post := by
  refine ⟨outcome.1, fun e refused => ?_⟩
  obtain ⟨t, listed, fault, same⟩ := outcome.2 e refused
  refine ⟨t, ?_, fault, same⟩
  rcases List.mem_append.mp listed with early | last
  · exact List.mem_append_left _ (suffix.subset early)
  · exact List.mem_append_right _ last

theorem mono {post' : α → Prop} (outcome : Outcome r toks answer post)
    (weaker : ∀ a, post a → post' a) : Outcome r toks answer post' :=
  ⟨fun a accepted => weaker a (outcome.1 a accepted), outcome.2⟩

theorem bind {later : List Token} {next : α → Except SourceError β} {post' : β → Prop}
    (first : Outcome r later answer post) (suffix : later <:+ toks)
    (more : ∀ a, post a → Outcome r toks (next a) post') :
    Outcome r toks (answer >>= next) post' := by
  cases read : answer with
  | ok a => exact more a (first.1 a read)
  | error e =>
      constructor
      · intro b same
        cases same
      · intro e same
        cases same
        exact (first.later suffix).2 e read

end Outcome

/-- All strings among the tokens have marks at both ends. -/
def AllQuoted (toks : List Token) : Prop := ∀ t ∈ toks, t.kind = .string → Quoted t.text

theorem AllQuoted.suffix {later : List Token} (quoted : AllQuoted toks) (suffix : later <:+ toks) :
    AllQuoted later :=
  fun t member => quoted t (suffix.subset member)

theorem current_mem (r : Reader) (toks : List Token) : r.current toks ∈ toks ++ [r.eof] := by
  cases toks with
  | nil => exact List.mem_singleton.mpr rfl
  | cons t rest => exact List.mem_cons_self

theorem take_outcome (r : Reader) (toks : List Token) (p : Token → Bool) (what : Expected) :
    Outcome r toks (r.take p what toks) fun out => toks = out.value :: out.rest ∧ p out.value := by
  cases toks with
  | nil => exact .fail (current_mem r [])
  | cons t rest =>
      rw [Reader.take]
      split
      · next accepted => exact .ok ⟨rfl, accepted⟩
      · exact .fail (current_mem r (t :: rest))

theorem spelled_outcome (listed : t ∈ toks ++ [r.eof]) (quoted : Quoted t.text) :
    Outcome r toks (r.spelled t (Spelling.decodeString t.text)) (Spelled t.text) := by
  cases decoded : Spelling.decodeString t.text with
  | ok text => exact .ok ((Spelling.decodeString_eq_ok_iff quoted).mp decoded)
  | error e => exact .fail listed

theorem key_outcome (quoted : AllQuoted toks) :
    Outcome r toks (key r toks) fun out => ∃ t, toks = t :: out.rest ∧ IsKey t out.value := by
  cases toks with
  | nil => exact .fail (List.mem_singleton.mpr rfl)
  | cons t rest =>
      unfold key
      simp only
      split
      · next word => exact .ok ⟨t, rfl, .word word⟩
      · next string =>
          have spelled : Outcome r (t :: rest) _ _ :=
            spelled_outcome List.mem_cons_self (quoted t List.mem_cons_self string)
          exact spelled.bind List.suffix_rfl fun text spells => .ok ⟨t, rfl, .string string spells⟩
      · exact .fail (current_mem r (t :: rest))

theorem skipComma_split (toks : List Token) :
    ∃ comma, toks = comma ++ (skipComma toks).1 ∧ OptionalComma comma := by
  cases toks with
  | nil => exact ⟨[], rfl, .absent⟩
  | cons t rest =>
      by_cases comma : t.Mark ","
      · refine ⟨[t], ?_, .present comma⟩
        rw [skipComma_of_mark comma]
        rfl
      · refine ⟨[], ?_, .absent⟩
        rw [skipComma_of_other fun u first => by cases first; exact comma]
        rfl

/-- What the rules read from the tokens is derived by the tokens they take. -/
structure Sound (r : Reader) (toks : List Token) : Prop where
  value : Outcome r toks (value r toks) fun out =>
    ∃ used, toks = used ++ out.rest ∧ Derives used (.value out.value)
  members : ∀ s : Section, Outcome r toks (members r s toks) fun out =>
    ∃ used t ms, toks = used ++ t :: out.rest ∧ Derives used (.members ms) ∧ t.Mark "\x7d" ∧
      out.value = s.overlay ms
  items : Outcome r toks (items r toks) fun out =>
    ∃ used t, toks = used ++ t :: out.rest ∧ Derives used (.items out.value) ∧ t.Mark "]"

theorem value_sound (quoted : AllQuoted toks)
    (shorter : ∀ later, later <:+ toks → later.length < toks.length → Sound r later) :
    Outcome r toks (Spec.value r toks) fun out =>
      ∃ used, toks = used ++ out.rest ∧ Derives used (.value out.value) := by
  rw [Spec.value.eq_def]
  cases toks with
  | nil => exact .fail (List.mem_singleton.mpr rfl)
  | cons t rest =>
      have behind : rest <:+ t :: rest := List.suffix_cons t rest
      have ahead := shorter rest behind (by simp)
      simp only
      split
      · next string =>
          have spelled : Outcome r (t :: rest) _ _ :=
            spelled_outcome List.mem_cons_self (quoted t List.mem_cons_self string)
          refine spelled.bind List.suffix_rfl fun text spells => .ok ?_
          exact ⟨[t], rfl, .string string spells⟩
      · split
        · next word => exact .ok ⟨[t], rfl, .word word (bareWord_iff.mpr rfl)⟩
        · split
          · next opens =>
              refine (ahead.members []).bind behind fun out inside => .ok ?_
              obtain ⟨used, closing, ms, split, derives, closes, made⟩ := inside
              refine ⟨t :: (used ++ [closing]), by simpa using split, ?_⟩
              have collects := (Section.collects_ofMembers ms).1
              exact .object (Token.isMark_iff.mp opens) derives closes (made ▸ collects)
          · split
            · next opens =>
                refine ahead.items.bind behind fun out inside => .ok ?_
                obtain ⟨used, closing, split, derives, closes⟩ := inside
                refine ⟨t :: (used ++ [closing]), by simpa using split, ?_⟩
                exact .list (Token.isMark_iff.mp opens) derives closes
            · exact .fail List.mem_cons_self

theorem member_sound (quoted : AllQuoted toks)
    (shorter : ∀ later, later <:+ toks → later.length < toks.length → Sound r later) :
    Outcome r toks (Spec.member r toks) fun out =>
      ∃ t colon used comma, toks = t :: colon :: (used ++ (comma ++ out.rest)) ∧
        IsKey t out.value.1 ∧ colon.Mark ":" ∧ Derives used (.value out.value.2) ∧
        OptionalComma comma := by
  rw [Spec.member.eq_def]
  refine (key_outcome quoted).bind List.suffix_rfl fun k isKey => ?_
  obtain ⟨t, split, isKey⟩ := isKey
  have behindKey : k.rest <:+ toks := ⟨[t], split.symm⟩
  refine (take_outcome r k.rest _ _).bind behindKey fun colon follows => ?_
  obtain ⟨splitToo, follows⟩ := follows
  have behindColon : colon.rest <:+ toks :=
    List.IsSuffix.trans ⟨[colon.value], splitToo.symm⟩ behindKey
  have ahead := shorter colon.rest behindColon (Nat.lt_trans colon.shorter k.shorter)
  refine ahead.value.bind behindColon fun v inside => .ok ?_
  obtain ⟨used, splitValue, derives⟩ := inside
  obtain ⟨comma, splitComma, ends⟩ := skipComma_split v.rest
  refine ⟨t, colon.value, used, comma, ?_, isKey, Token.isMark_iff.mp follows, derives, ends⟩
  change toks = t :: colon.value :: (used ++ (comma ++ (skipComma v.rest).1))
  rw [← splitComma, ← splitValue, ← splitToo, ← split]

theorem members_sound (quoted : AllQuoted toks)
    (shorter : ∀ later, later <:+ toks → later.length < toks.length → Sound r later) (s : Section) :
    Outcome r toks (Spec.members r s toks) fun out =>
      ∃ used t ms, toks = used ++ t :: out.rest ∧ Derives used (.members ms) ∧ t.Mark "\x7d" ∧
        out.value = s.overlay ms := by
  rw [Spec.members.eq_def]
  cases skipped : skipIf? (·.isMark "\x7d") toks with
  | some later =>
      obtain ⟨t, split, closes⟩ := exists_of_skipIf? skipped
      exact .ok ⟨[], t, [], split, .noMember, Token.isMark_iff.mp closes, rfl⟩
  | none =>
      refine (member_sound quoted shorter).bind List.suffix_rfl fun m first => ?_
      obtain ⟨t, colon, used, comma, split, isKey, follows, derives, ends⟩ := first
      have behind : m.rest <:+ toks :=
        ⟨t :: colon :: (used ++ comma), Eq.trans (by simp) split.symm⟩
      have ahead := (shorter m.rest behind m.shorter).members (s.insert m.value.1 m.value.2)
      refine ahead.bind behind fun out inside => .ok ?_
      obtain ⟨usedMore, closing, ms, splitMore, derivesMore, closes, made⟩ := inside
      refine ⟨t :: colon :: (used ++ (comma ++ usedMore)), closing, m.value :: ms, ?_,
        .member isKey follows derives ends derivesMore, closes, made⟩
      exact split.trans (by simpa using splitMore)

theorem items_sound (quoted : AllQuoted toks)
    (shorter : ∀ later, later <:+ toks → later.length < toks.length → Sound r later) :
    Outcome r toks (Spec.items r toks) fun out =>
      ∃ used t, toks = used ++ t :: out.rest ∧ Derives used (.items out.value) ∧ t.Mark "]" := by
  rw [Spec.items.eq_def]
  cases skipped : skipIf? (·.isMark "]") toks with
  | some later =>
      obtain ⟨t, split, closes⟩ := exists_of_skipIf? skipped
      exact .ok ⟨[], t, split, .noItem, Token.isMark_iff.mp closes⟩
  | none =>
      refine (value_sound quoted shorter).bind List.suffix_rfl fun x first => ?_
      obtain ⟨used, split, derives⟩ := first
      obtain ⟨comma, splitComma, ends⟩ := skipComma_split x.rest
      have behind : (skipComma x.rest).1 <:+ toks :=
        ⟨used ++ comma, Eq.trans (by simpa using splitComma.symm) split.symm⟩
      have ahead := shorter _ behind (Nat.lt_of_le_of_lt (skipComma x.rest).2 x.shorter)
      refine ahead.items.bind behind fun out inside => .ok ?_
      obtain ⟨usedMore, closing, splitMore, derivesMore, closes⟩ := inside
      refine ⟨used ++ (comma ++ usedMore), closing, ?_, .item derives ends derivesMore, closes⟩
      have afterComma := splitComma.trans (congrArg (comma ++ ·) splitMore)
      exact split.trans (by simpa using afterComma)

theorem sound (r : Reader) (quoted : AllQuoted toks) : Sound r toks := by
  induction size : toks.length using Nat.strongRecOn generalizing toks with
  | ind n ih =>
      have shorter : ∀ later, later <:+ toks → later.length < toks.length → Sound r later :=
        fun later suffix bound => ih _ (size ▸ bound) (quoted.suffix suffix) rfl
      constructor
      · exact value_sound quoted shorter
      · exact members_sound quoted shorter
      · exact items_sound quoted shorter

theorem rootMembers_sound (quoted : AllQuoted toks) (s : Section) :
    Outcome r toks (rootMembers r s toks) fun out =>
      ∃ ms, Derives toks (.members ms) ∧ out = s.overlay ms := by
  induction size : toks.length using Nat.strongRecOn generalizing toks s with
  | ind n ih =>
      rw [rootMembers.eq_def]
      cases toks with
      | nil => exact .ok ⟨[], .noMember, rfl⟩
      | cons t rest =>
          have read := member_sound quoted fun later suffix _ => sound r (quoted.suffix suffix)
          refine read.bind List.suffix_rfl fun m first => ?_
          obtain ⟨key, colon, used, comma, split, isKey, follows, derives, ends⟩ := first
          have behind : m.rest <:+ t :: rest :=
            ⟨key :: colon :: (used ++ comma), Eq.trans (by simp) split.symm⟩
          have ahead := ih _ (size ▸ m.shorter) (quoted.suffix behind)
            (s.insert m.value.1 m.value.2) rfl
          refine (ahead.later behind).mono fun out inside => ?_
          obtain ⟨ms, derivesMore, made⟩ := inside
          refine ⟨m.value :: ms, ?_, made⟩
          have derived := Derives.member isKey follows derives ends derivesMore
          rwa [← split] at derived

/-- A spec that is read is derived, and one that is refused is refused at one of its tokens. -/
theorem root_sound (quoted : AllQuoted toks) :
    Outcome r toks (root r toks) (DerivesRoot toks) := by
  rw [root]
  cases skipped : skipIf? (·.isMark "\x7b") toks with
  | none =>
      refine (rootMembers_sound quoted []).mono fun s read => ?_
      obtain ⟨ms, derives, made⟩ := read
      exact .bare derives (made ▸ (Section.collects_ofMembers ms).1)
  | some later =>
      obtain ⟨opening, split, opens⟩ := exists_of_skipIf? skipped
      have behind : later.1 <:+ toks := ⟨[opening], split.symm⟩
      have ahead := (sound r (quoted.suffix behind)).members []
      refine ahead.bind behind fun out inside => ?_
      obtain ⟨used, closing, ms, splitMore, derives, closes, made⟩ := inside
      have whole : toks = opening :: (used ++ closing :: out.rest) :=
        split.trans (congrArg (opening :: ·) splitMore)
      obtain ⟨s, rest, _⟩ := out
      cases rest with
      | nil =>
          have derived := DerivesRoot.braced (Token.isMark_iff.mp opens) derives closes
            (Section.collects_ofMembers ms).1
          refine .ok ?_
          rw [whole, show s = Section.ofMembers ms from made]
          exact derived
      | cons t rest =>
          refine .fail ?_
          rw [whole]
          simp

/-- The reader of specs accepts exactly what the grammar derives, with the tree that it derives, and
refuses every other text at one of its tokens. A string among the tokens is derived as soon as its
escapes are known. -/
theorem parse_iff_derives {file text : String} {ts : TokenList}
    (tokenized : tokenizeFile .spec file text = .ok ts) :
    (∀ t ∈ ts.tokens, t.kind = .string → Spelling.isSupported t.text.toList →
      ∃ content, Spelled t.text content) ∧
    (∀ s, parse file text = .ok s ↔ DerivesRoot ts.tokens s) ∧
    ((¬ ∃ s, DerivesRoot ts.tokens s) →
      ∃ t ∈ ts.toList, ∃ fault, parse file text = .error (.parse file t.pos fault)) := by
  have stands : ∀ t ∈ ts.tokens, Language.specs.Stands t.kind t.text.toList :=
    Language.stands_of_tokenizeFile tokenized
  have spelled : ∀ t ∈ ts.tokens, t.kind = .string → Quoted t.text ∧
      (Spelling.isSupported t.text.toList → ∃ content, Spelled t.text content) :=
    fun t member string => Spelling.spelled_of_stands (string ▸ stands t member)
  have parsed : parse file text = root ⟨file, ts.eof⟩ ts.tokens := by
    rw [parse, tokenized]
    rfl
  have outcome : Outcome ⟨file, ts.eof⟩ ts.tokens (parse file text) (DerivesRoot ts.tokens) := by
    rw [parsed]
    exact root_sound fun t member string => (spelled t member string).1
  refine ⟨fun t member string => (spelled t member string).2, fun s => ⟨outcome.1 s, ?_⟩, ?_⟩
  · intro derives
    rw [parsed]
    exact derives.read _
  · intro underivable
    cases answer : parse file text with
    | ok s => exact absurd ⟨s, outcome.1 s answer⟩ underivable
    | error e =>
        obtain ⟨t, listed, fault, rfl⟩ := outcome.2 e answer
        exact ⟨t, listed, fault, rfl⟩

/-- A key that is repeated, in a text with one comma where two could stand. -/
theorem parse_of_repeated_key :
    ∃ ts, tokenizeFile .spec "s" "a: x, a: \x7b\"\\n\": null\x7d" = .ok ts ∧
      parse "s" "a: x, a: \x7b\"\\n\": null\x7d" = .ok [("a", .object [("\n", .null)])] := by
  have tokenized : tokenizeFile .spec "s" "a: x, a: \x7b\"\\n\": null\x7d" =
      .ok ⟨[⟨.word, "a", ⟨1, 1⟩, none⟩, ⟨.punctuation, ":", ⟨1, 2⟩, none⟩,
        ⟨.word, "x", ⟨1, 4⟩, none⟩, ⟨.punctuation, ",", ⟨1, 5⟩, none⟩,
        ⟨.word, "a", ⟨1, 7⟩, none⟩, ⟨.punctuation, ":", ⟨1, 8⟩, none⟩,
        ⟨.punctuation, "\x7b", ⟨1, 10⟩, none⟩, ⟨.string, "\"\\n\"", ⟨1, 11⟩, none⟩,
        ⟨.punctuation, ":", ⟨1, 15⟩, none⟩, ⟨.word, "null", ⟨1, 17⟩, none⟩,
        ⟨.punctuation, "\x7d", ⟨1, 21⟩, none⟩], ⟨1, 22⟩⟩ := by
    decide +kernel
  have spelled : Spelled "\"\\n\"" "\n" :=
    ⟨['\\', 'n'], by decide, .escape (by decide) .done⟩
  refine ⟨_, tokenized, ((parse_iff_derives tokenized).2.1 _).mpr ?_⟩
  have collects := (Section.collects_ofMembers [("a", .str "x"), ("a", .object [("\n", .null)])]).1
  refine .bare (@Derives.member _ _ [_] [_] _ _ _ _ (.word rfl) ⟨rfl, rfl⟩
    (.word rfl (.other (by decide))) (.present ⟨rfl, rfl⟩) ?_) collects
  refine @Derives.member _ _ [_, _, _, _, _] [] [] _ _ _ (.word rfl) ⟨rfl, rfl⟩ ?_ .absent .noMember
  refine @Derives.object _ _ [_, _, _] [("\n", .null)] _ ⟨rfl, rfl⟩ ?_ ⟨rfl, rfl⟩
    (Section.collects_ofMembers _).1
  exact @Derives.member _ _ [_] [] [] _ _ _ (.string rfl spelled) ⟨rfl, rfl⟩ (.word rfl .null)
    .absent .noMember

end Spec

end IdlGen
