import IdlGen.Idl.TypeExpr
import IdlGen.Proofs.Idl.Wp
import IdlGen.Proofs.Literal.Integers
import IdlGen.Proofs.Model.Containers
import IdlGen.Proofs.Token.Reading

/-!
# Names of types as text

The name of a container is put together from the names of its elements without blanks. It is cut
into the tokens of a type nevertheless, since a name ends before each of the marks. Reading these
tokens makes the registry look up the containers from the inside out, each under the name that it
has there.
-/

namespace IdlGen

namespace Shape

variable {c : Char} {cs rest : List Char}

/-- What can begin a name begins no other token, and no layout. -/
theorem plain_of_isNameStart (start : isNameStart c) :
    ¬ Text.isBlank c ∧ ¬ Text.isDigit c ∧ c ∉ ['/', '#', '+', '-', '.', '0', '"', '\''] := by
  have small : ∀ k ∈ List.range' 97 26, ¬ Text.isBlank (Char.ofNat k) ∧
      ¬ Text.isDigit (Char.ofNat k) ∧
      Char.ofNat k ∉ ['/', '#', '+', '-', '.', '0', '"', '\''] := by
    decide +kernel
  have capital : ∀ k ∈ List.range' 65 26, ¬ Text.isBlank (Char.ofNat k) ∧
      ¬ Text.isDigit (Char.ofNat k) ∧
      Char.ofNat k ∉ ['/', '#', '+', '-', '.', '0', '"', '\''] := by
    decide +kernel
  have split : (('a' ≤ c && c ≤ 'z') = true ∨ ('A' ≤ c && c ≤ 'Z') = true) ∨ c = '_' := by
    simpa [isNameStart] using start
  rcases split with (between | between) | rfl
  · have here := small _ (Integer.mem_range'_of_between between)
    rwa [Char.ofNat_toNat] at here
  · have here := capital _ (Integer.mem_range'_of_between between)
    rwa [Char.ofNat_toNat] at here
  · decide +kernel

/-- A name with or without the name of a model before it. -/
def IsTypeWord (cs : List Char) : Prop :=
  isIdentifier cs ∨ ∃ n x, cs = n ++ '.' :: x ∧ isIdentifier n ∧ isIdentifier x

theorem nameTail_append (each : ∀ c ∈ cs, isNameChar c) :
    nameTail (cs ++ rest) = cs.length + nameTail rest := by
  induction cs with
  | nil => simp
  | cons c cs ih =>
      have others := ih fun d member => each d (List.mem_cons_of_mem c member)
      rw [List.cons_append, nameTail.eq_def]
      simp only [each c List.mem_cons_self, if_true, others, List.length_cons]
      omega

theorem dottedName_identifier (identifier : isIdentifier cs) :
    dottedName (cs ++ rest) = cs.length + nameTail rest := by
  cases cs with
  | nil => cases identifier
  | cons c cs =>
      obtain ⟨start, others⟩ := Bool.and_eq_true_iff.mp identifier
      rw [List.cons_append, dottedName, if_pos start,
        nameTail_append (List.all_eq_true.mp others)]
      simp only [List.length_cons]
      omega

theorem nameTail_point (identifier : isIdentifier cs) :
    nameTail ('.' :: (cs ++ rest)) = cs.length + 1 + nameTail rest := by
  cases cs with
  | nil => cases identifier
  | cons c cs =>
      obtain ⟨start, others⟩ := Bool.and_eq_true_iff.mp identifier
      rw [List.cons_append, nameTail, if_neg (by decide), if_pos rfl]
      simp only [start, if_true, nameTail_append (List.all_eq_true.mp others), List.length_cons]
      omega

/-- A name ends before a mark. -/
theorem nameTail_mark (stops : ∀ c ∈ rest.head?, c ∈ ['<', '>', ',']) : nameTail rest = 0 := by
  cases rest with
  | nil => rfl
  | cons c rest =>
      have mark := stops c rfl
      simp only [List.mem_cons, List.not_mem_nil, or_false] at mark
      rw [nameTail.eq_def]
      rcases mark with rfl | rfl | rfl <;> simp <;> decide

theorem IsTypeWord.dottedName (word : IsTypeWord cs)
    (stops : ∀ c ∈ rest.head?, c ∈ ['<', '>', ',']) : dottedName (cs ++ rest) = cs.length := by
  rcases word with identifier | ⟨n, x, rfl, model, name⟩
  · rw [dottedName_identifier identifier, nameTail_mark stops]
    rfl
  · rw [List.append_assoc, List.cons_append, dottedName_identifier model, nameTail_point name,
      nameTail_mark stops, List.length_append, List.length_cons, Nat.add_zero]

theorem IsTypeWord.exists_start (word : IsTypeWord cs) :
    ∃ c more, cs = c :: more ∧ isNameStart c := by
  have front : ∀ {ds : List Char}, isIdentifier ds → ∃ c more, ds = c :: more ∧ isNameStart c := by
    intro ds identifier
    cases ds with
    | nil => cases identifier
    | cons c ds => exact ⟨c, ds, rfl, (Bool.and_eq_true_iff.mp identifier).1⟩
  rcases word with identifier | ⟨n, x, rfl, model, _⟩
  · exact front identifier
  · obtain ⟨c, more, rfl, start⟩ := front model
    exact ⟨c, _, rfl, start⟩

end Shape

namespace Language

variable {cs rest : List Char}

/-- The text is over, or goes on with one of the marks in the names of containers. -/
def Stops (cs : List Char) : Prop := ∀ c ∈ cs.head?, c ∈ ['<', '>', ',']

theorem choose?_typeWord (word : Shape.IsTypeWord cs) (stops : Stops rest) :
    Alternative.choose? definitions.alternatives (cs ++ rest) = some (.token .word, rest) := by
  have name : Pattern.dottedName.first? (cs ++ rest) = some rest := by
    obtain ⟨c, more, rfl, _⟩ := word.exists_start
    rw [Pattern.dottedName_reads, word.dottedName stops, List.drop_left]
    rfl
  obtain ⟨c, more, rfl, start⟩ := word.exists_start
  obtain ⟨visible, digit, other⟩ := Shape.plain_of_isNameStart start
  simp only [List.mem_cons, List.not_mem_nil, or_false, not_or] at other
  have sign : Shape.sign (c :: (more ++ rest)) = 0 := by simp [Shape.sign, other]
  have digits : Shape.digits (c :: (more ++ rest)) = 0 := by
    simp [Shape.digits, Shape.run, digit]
  have double : Pattern.double.first? (c :: (more ++ rest)) = none := by
    rw [Pattern.double_reads, if_pos]
    simp [Shape.double, sign, digits, other]
  have integer : Pattern.integer.first? (c :: (more ++ rest)) = none := by
    rw [Pattern.integer_reads, if_pos]
    simp [Shape.integer, Shape.hexadecimal, sign, digits, other]
  rw [List.cons_append] at name ⊢
  rw [choose?_eq_or, choose?_layout_cons visible (by simp [other]) (by simp [other]),
    Option.none_or]
  simp [Alternative.choose?, tokens, alternatives, layout, double, integer, Pattern.quoted, other,
    name]

theorem choose?_typeMark {c : Char} (mark : c ∈ ['<', '>', ',']) :
    Alternative.choose? definitions.alternatives (c :: rest) =
      some (.token .punctuation, rest) := by
  simp only [List.mem_cons, List.not_mem_nil, or_false] at mark
  rw [choose?_eq]
  rcases mark with rfl | rfl | rfl <;> rfl

/-- A word and what follows it. -/
theorem Cut.typeWord {text : String} {lexemes : List Lexeme}
    (word : Shape.IsTypeWord text.toList) (stops : Stops rest)
    (more : definitions.Cut rest lexemes []) :
    definitions.Cut (text.toList ++ rest) (.ofReading (.word, text) :: lexemes) [] := by
  obtain ⟨c, inside, whole, _⟩ := word.exists_start
  have nonempty : text.toList ≠ [] := by simp [whole]
  exact Cut.next (l := .ofReading (.word, text)) nonempty (choose?_typeWord word stops) more

/-- A mark and what follows it. -/
theorem Cut.typeMark {c : Char} {lexemes : List Lexeme} (mark : c ∈ ['<', '>', ','])
    (more : definitions.Cut rest lexemes []) :
    definitions.Cut (c :: rest) (.ofReading (.punctuation, String.singleton c) :: lexemes) [] := by
  have next := Cut.next (l := .ofReading (.punctuation, String.singleton c))
    (by simp [Lexeme.ofReading]) (by simpa [Lexeme.ofReading] using choose?_typeMark mark) more
  simpa [Lexeme.ofReading] using next

end Language

namespace Ty

/-- The tokens of a type's name. -/
def readings : Ty → List (TokenKind × String)
  | list _ e => (.word, "list") :: (.punctuation, "<") :: (e.readings ++ [(.punctuation, ">")])
  | set _ e => (.word, "set") :: (.punctuation, "<") :: (e.readings ++ [(.punctuation, ">")])
  | map _ k v => (.word, "map") :: (.punctuation, "<") ::
      (k.readings ++ (.punctuation, ",") :: (v.readings ++ [(.punctuation, ">")]))
  | t => [(.word, t.qname)]

/-- The types without elements that the type is made of. -/
def leaves (t : Ty) : List Ty := t.parts.filter (·.elements.isEmpty)

variable {t : Ty} {n : Nat} {e k v : Ty}

@[simp] theorem leaves_list : (list n e).leaves = e.leaves := by simp [leaves, parts, elements]

@[simp] theorem leaves_set : (set n e).leaves = e.leaves := by simp [leaves, parts, elements]

@[simp] theorem leaves_map : (map n k v).leaves = k.leaves ++ v.leaves := by
  simp [leaves, parts, elements]

theorem leaves_of_leaf (leaf : t.elements = []) : t.leaves = [t] := by
  cases t with
  | list | set | map => cases leaf
  | prim | enum | record => rfl

theorem readings_of_leaf (leaf : t.elements = []) : t.readings = [(.word, t.qname)] := by
  cases t with
  | list | set | map => cases leaf
  | prim | enum | record => rfl

open IdlGen.Language in
/-- A name is cut into the tokens of the type, up to a mark behind it. -/
theorem cut_qname {rest : List Char} {lexemes : List Lexeme}
    (words : ∀ leaf ∈ t.leaves, Shape.IsTypeWord leaf.qname.toList) (stops : Stops rest)
    (more : definitions.Cut rest lexemes []) :
    definitions.Cut (t.qname.toList ++ rest) (t.readings.map .ofReading ++ lexemes) [] := by
  have closes : ∀ cs, Stops ('>' :: cs) := by rintro cs c ⟨⟩; decide
  have opens : ∀ cs, Stops ('<' :: cs) := by rintro cs c ⟨⟩; decide
  have separates : ∀ cs, Stops (',' :: cs) := by rintro cs c ⟨⟩; decide
  induction t using parts.induct generalizing rest lexemes with
  | case1 n e ih =>
      have inside := ih (by simpa using words) (closes rest) (.typeMark (by decide) more)
      have word : Shape.IsTypeWord "list".toList := .inl rfl
      have whole := Cut.typeWord word (opens _) (.typeMark (by decide) inside)
      simpa [qname, readings] using whole
  | case2 n e ih =>
      have inside := ih (by simpa using words) (closes rest) (.typeMark (by decide) more)
      have word : Shape.IsTypeWord "set".toList := .inl rfl
      have whole := Cut.typeWord word (opens _) (.typeMark (by decide) inside)
      simpa [qname, readings] using whole
  | case3 n k v ihk ihv =>
      rw [leaves_map, List.forall_mem_append] at words
      have value := ihv words.2 (closes rest) (.typeMark (by decide) more)
      have key := ihk words.1 (separates _) (.typeMark (by decide) value)
      have word : Shape.IsTypeWord "map".toList := .inl rfl
      have whole := Cut.typeWord word (opens _) (.typeMark (by decide) key)
      simpa [qname, readings] using whole
  | case4 t notList notSet notMap =>
      have leaf : t.elements = [] := by cases t <;> simp_all [elements]
      rw [leaves_of_leaf leaf] at words
      rw [readings_of_leaf leaf]
      exact .typeWord (words t (by simp)) stops more

end Ty

theorem Container.request_of_holds {s : ModelSet} {c : Container} {n : Nat}
    (held : s.Holds (c.make n)) : c.request s = (c.make n, s) := by
  have found : s.type? (c.make n).qname = some (c.make n) := held
  rcases c.request_cases s with ⟨known, same, result⟩ | ⟨free, _⟩
  · rw [make_qname (k := n), found] at same
    cases same
    exact result
  · rw [make_qname (k := n), found] at free
    cases free

namespace Idl

open LoadM

variable {r : Reader} {m : Model} {declaring : Declaring} {σ : LoadState} {ty key value elem : Ty}
variable {t opening comma closing : Token} {toks rest left : List Token}

/-- The rule gives a type, leaves the rest of the tokens, and changes nothing. -/
def Yields (x : LoadM (Parsed toks Ty)) (σ : LoadState) (ty : Ty) (rest : List Token) : Prop :=
  ∃ out, x.exec σ = (.ok out, σ) ∧ out.value = ty ∧ out.rest = rest

theorem exec_updateSet {α : Type} {g : ModelSet → α × ModelSet} {a : α}
    (same : g σ.set = (a, σ.set)) : (updateSet g).exec σ = (.ok a, σ) := by
  change (Except.ok (g σ.set).1, { σ with set := (g σ.set).2 }) = _
  rw [same]

namespace Yields

variable {α : Type} {a : α} {x : LoadM α} {y : Except SourceError α}
variable {f : α → LoadM (Parsed toks Ty)}

theorem pure {p : Parsed toks Ty} : Yields (Pure.pure p) σ p.value p.rest := ⟨p, rfl, rfl, rfl⟩

theorem bind (first : x.exec σ = (.ok a, σ)) (next : Yields (f a) σ ty rest) :
    Yields (x >>= f) σ ty rest := by
  unfold Yields
  rwa [exec_bind_ok first]

theorem lift_bind (first : y = .ok a) (next : Yields (f a) σ ty rest) :
    Yields ((liftM y : LoadM α) >>= f) σ ty rest := by
  unfold Yields
  rwa [exec_lift_bind first]

end Yields

/-- Lists and sets are named by a word and the name of their elements. -/
theorem typeExpr_enclosed {text : String} {c : Container}
    (kind : (text, c) ∈ [("list", .list elem), ("set", .set elem)]) (word : t.kind = .word)
    (same : t.text = text) (opens : opening.Mark "<")
    (inside : Yields (typeExpr r m declaring false toks) σ elem (closing :: rest))
    (closes : closing.Mark ">") (known : c.request σ.set = (ty, σ.set)) :
    Yields (typeExpr r m declaring false (t :: opening :: toks)) σ ty rest := by
  obtain ⟨⟨_, _, _⟩, read, rfl, rfl⟩ := inside
  rw [typeExpr]
  rcases List.mem_pair.mp kind with isList | isSet
  · obtain ⟨rfl, rfl⟩ := Prod.mk.inj isList
    simp only [word, same, ne_eq, not_true_eq_false, if_false]
    exact .lift_bind (Reader.expect_mark opens) (.bind read
      (.lift_bind (Reader.expect_mark closes) (.bind (exec_updateSet known) .pure)))
  · obtain ⟨rfl, rfl⟩ := Prod.mk.inj isSet
    simp only [word, same, ne_eq, not_true_eq_false, if_false]
    exact .lift_bind (Reader.expect_mark opens) (.bind read
      (.lift_bind (Reader.expect_mark closes) (.bind (exec_updateSet known) .pure)))

theorem typeExpr_map (word : t.kind = .word) (text : t.text = "map") (opens : opening.Mark "<")
    (first : Yields (typeExpr r m declaring false toks) σ key (comma :: left))
    (separates : comma.Mark ",")
    (second : Yields (typeExpr r m declaring false left) σ value (closing :: rest))
    (closes : closing.Mark ">") (known : σ.set.mapType key value = (ty, σ.set)) :
    Yields (typeExpr r m declaring false (t :: opening :: toks)) σ ty rest := by
  obtain ⟨⟨_, _, _⟩, readKey, rfl, rfl⟩ := first
  obtain ⟨⟨_, _, _⟩, readValue, rfl, rfl⟩ := second
  rw [typeExpr]
  simp only [word, text, ne_eq, not_true_eq_false, if_false]
  exact .lift_bind (Reader.expect_mark opens) (.bind readKey
    (.lift_bind (Reader.expect_mark separates) (.bind readValue
      (.lift_bind (Reader.expect_mark closes) (.bind (exec_updateSet known) .pure)))))

/-- The words that stand for no name of a type. -/
def typeKeywords : List String := ["void", "i8", "list", "set", "map"]

theorem typeExpr_name (word : t.kind = .word) (name : t.text ∉ typeKeywords)
    (own : σ.set.type? (m.qname t.text) = none) (known : σ.set.type? t.text = some ty) :
    Yields (typeExpr r m declaring false (t :: rest)) σ ty rest := by
  have named : namedType r m declaring t σ.set = .ok ty := by
    simp [namedType, Model.lookupType, own, known]
  simp only [typeKeywords, List.mem_cons, List.not_mem_nil, or_false, not_or] at name
  rw [typeExpr]
  simp only [word, ne_eq, not_true_eq_false, if_false]
  split
  · next isVoid => exact absurd isVoid name.1
  · next isByte => exact absurd isByte name.2.1
  · next isList => exact absurd isList name.2.2.1
  · next isSet => exact absurd isSet name.2.2.2.1
  · next isMap => exact absurd isMap name.2.2.2.2
  · exact .bind (x := getSet) rfl (.lift_bind named .pure)

theorem exists_word {text : String} {entries : List (TokenKind × String)}
    (same : toks.map Token.reading = (.word, text) :: entries) :
    ∃ t rest, toks = t :: rest ∧ t.kind = .word ∧ t.text = text ∧
      rest.map Token.reading = entries := by
  obtain ⟨t, rest, rfl, reading, others⟩ := List.map_eq_cons_iff.mp same
  obtain ⟨word, text⟩ := Prod.mk.inj reading
  exact ⟨t, rest, rfl, word, text, others⟩

theorem exists_mark {text : String} {entries : List (TokenKind × String)}
    (same : toks.map Token.reading = (.punctuation, text) :: entries) :
    ∃ t rest, toks = t :: rest ∧ t.Mark text ∧ rest.map Token.reading = entries := by
  obtain ⟨t, rest, rfl, reading, others⟩ := List.map_eq_cons_iff.mp same
  obtain ⟨mark, text⟩ := Prod.mk.inj reading
  exact ⟨t, rest, rfl, ⟨mark, text⟩, others⟩

/-- What is read inside the brackets makes up the whole. -/
theorem Yields.enclosed {text : String} {c : Container}
    (kind : (text, c) ∈ [("list", .list elem), ("set", .set elem)])
    (known : c.request σ.set = (ty, σ.set))
    (same : toks.map Token.reading =
      (.word, text) :: (.punctuation, "<") :: (elem.readings ++ [(.punctuation, ">")]))
    (inside : ∀ {front : List Token}, front.map Token.reading = elem.readings →
      ∀ rest, Yields (typeExpr r m declaring false (front ++ rest)) σ elem rest)
    (rest : List Token) : Yields (typeExpr r m declaring false (toks ++ rest)) σ ty rest := by
  obtain ⟨t, toks, rfl, word, text, same⟩ := exists_word same
  obtain ⟨opening, toks, rfl, opens, same⟩ := exists_mark same
  obtain ⟨front, toks, rfl, inner, last⟩ := List.map_eq_append_iff.mp same
  obtain ⟨closing, toks, rfl, closes, last⟩ := exists_mark last
  cases List.map_eq_nil_iff.mp last
  have whole : t :: opening :: (front ++ [closing]) ++ rest =
      t :: opening :: (front ++ closing :: rest) := by simp
  rw [whole]
  exact typeExpr_enclosed kind word text opens (inside inner (closing :: rest)) closes known

/-- The tokens of a type's name are read as the type that has the name. -/
theorem typeExpr_readings (held : ∀ p ∈ ty.parts, σ.set.Holds p)
    (names : ∀ leaf ∈ ty.leaves,
      leaf.qname ∉ typeKeywords ∧ σ.set.type? (m.qname leaf.qname) = none)
    (same : toks.map Token.reading = ty.readings) (rest : List Token) :
    Yields (typeExpr r m declaring false (toks ++ rest)) σ ty rest := by
  induction ty using Ty.parts.induct generalizing toks rest with
  | case1 n e ih =>
      -- The registry has the container already, so asking for it once more adds nothing.
      have known := Container.request_of_holds (c := .list e) (held _ (Ty.self_mem_parts _))
      simp only [Ty.parts, List.forall_mem_cons] at held
      exact .enclosed (by simp) known same (ih held.2 (by simpa using names)) rest
  | case2 n e ih =>
      have known := Container.request_of_holds (c := .set e) (held _ (Ty.self_mem_parts _))
      simp only [Ty.parts, List.forall_mem_cons] at held
      exact .enclosed (by simp) known same (ih held.2 (by simpa using names)) rest
  | case3 n k v ihk ihv =>
      obtain ⟨t, toks, rfl, word, text, same⟩ := exists_word same
      obtain ⟨opening, toks, rfl, opens, same⟩ := exists_mark same
      obtain ⟨front, toks, rfl, sameKey, others⟩ := List.map_eq_append_iff.mp same
      obtain ⟨comma, toks, rfl, separates, others⟩ := exists_mark others
      obtain ⟨back, toks, rfl, sameValue, last⟩ := List.map_eq_append_iff.mp others
      obtain ⟨closing, toks, rfl, closes, last⟩ := exists_mark last
      cases List.map_eq_nil_iff.mp last
      have known := Container.request_of_holds (c := .map k v) (held _ (Ty.self_mem_parts _))
      simp only [Ty.parts, List.forall_mem_cons, List.forall_mem_append] at held
      rw [Ty.leaves_map, List.forall_mem_append] at names
      have key := ihk held.2.1 names.1 sameKey (comma :: (back ++ closing :: rest))
      have value := ihv held.2.2 names.2 sameValue (closing :: rest)
      have whole : t :: opening :: (front ++ comma :: (back ++ [closing])) ++ rest =
          t :: opening :: (front ++ comma :: (back ++ closing :: rest)) := by simp
      rw [whole]
      exact typeExpr_map word text opens key separates value closes known
  | case4 ty notList notSet notMap =>
      have leaf : ty.elements = [] := by cases ty <;> simp_all [Ty.elements]
      rw [Ty.readings_of_leaf leaf] at same
      rw [Ty.leaves_of_leaf leaf] at names
      obtain ⟨t, toks, rfl, word, text, last⟩ := exists_word same
      cases List.map_eq_nil_iff.mp last
      obtain ⟨name, own⟩ := names ty List.mem_cons_self
      rw [← text] at name own
      refine typeExpr_name word name own ?_
      rw [text]
      exact held ty ty.self_mem_parts

end Idl

end IdlGen
