import IdlGen.Proofs.Types.Parts
import IdlGen.Token.Shape

/-!
# Containers and their names

The three kinds of container differ in their constructor and in the number of their elements. The
name of a container is put together from the names of its elements, with angle brackets around them
and a comma between the two of a map. Such a name can be taken apart in one way only, as long as no
other name in it holds one of these marks: the comma of a map is the only one that no inner brackets
enclose.
-/

namespace IdlGen

/-- A container without its stamp: the constructor and the types it is applied to. -/
inductive Container where
  | list (elem : Ty)
  | set (elem : Ty)
  | map (key value : Ty)

namespace Container

@[simp] def elements : Container → List Ty
  | list e => [e]
  | set e => [e]
  | map k v => [k, v]

/-- The type that a container is under a stamp. -/
def make : Container → Nat → Ty
  | list e, stamp => .list stamp e
  | set e, stamp => .set stamp e
  | map k v, stamp => .map stamp k v

variable {c : Container} {n k : Nat}

@[simp] theorem make_elements : (c.make n).elements = c.elements := by cases c <;> rfl

@[simp] theorem make_stamp? : (c.make n).stamp? = some n := by cases c <;> rfl

@[simp] theorem make_isNamed : (c.make n).isNamed = false := by cases c <;> rfl

theorem make_qname : (c.make n).qname = (c.make k).qname := by cases c <;> rfl

theorem eq_of_make {d : Container} (h : c.make n = d.make k) : c = d := by
  cases c <;> cases d <;> simp_all [make]

theorem elements_ne_nil : c.elements ≠ [] := by cases c <;> simp

end Container

/-- Induction over what a type is made of. -/
@[elab_as_elim] theorem Ty.elements_induction {P : Ty → Prop}
    (leaf : ∀ t : Ty, t.elements = [] → P t)
    (container : ∀ (c : Container) (n : Nat), (∀ e ∈ c.elements, P e) → P (c.make n)) (t : Ty) :
    P t := by
  induction t using parts.induct with
  | case1 n e ih => exact container (.list e) n (by simpa using ih)
  | case2 n e ih => exact container (.set e) n (by simpa using ih)
  | case3 n k v ihk ihv => exact container (.map k v) n (by simpa using ⟨ihk, ihv⟩)
  | case4 t notList notSet notMap => exact leaf t (by cases t <;> simp_all [elements])

theorem Ty.elements_eq_nil_or_make (t : Ty) :
    t.elements = [] ∨ ∃ (c : Container) (k : Nat), t = c.make k := by
  induction t using Ty.elements_induction with
  | leaf t leaf => exact .inl leaf
  | container c k _ => exact .inr ⟨c, k, rfl⟩

/-- Follows the brackets of a text, from a place that lies `depth` brackets deep. Refuses a bracket
that closes nothing, and a comma outside of all brackets. -/
def brackets : Nat → List Char → Option Nat
  | depth, [] => some depth
  | depth, c :: cs =>
    if c = '<' then brackets (depth + 1) cs
    else if c = '>' then if depth = 0 then none else brackets (depth - 1) cs
    else if c = ',' ∧ depth = 0 then none
    else brackets depth cs

/-- No mark of a container's name is in the text. -/
def Plain (text : List Char) : Prop := ∀ c ∈ text, c ≠ '<' ∧ c ≠ '>' ∧ c ≠ ','

/-- Every bracket of the text is closed, and every comma is inside of brackets. -/
def Enclosed (text : List Char) : Prop := brackets 0 text = some 0

instance (text : List Char) : Decidable (Plain text) :=
  inferInstanceAs (Decidable (∀ c ∈ text, c ≠ '<' ∧ c ≠ '>' ∧ c ≠ ','))

@[simp, grind =] theorem brackets_append (depth : Nat) (front back : List Char) :
    brackets depth (front ++ back) = (brackets depth front).bind (brackets · back) := by
  fun_induction brackets depth front <;> simp_all [brackets]

/-- Brackets around a text do not change how it is read. -/
theorem brackets_succ {depth after : Nat} {text : List Char}
    (h : brackets depth text = some after) : brackets (depth + 1) text = some (after + 1) := by
  fun_induction brackets depth text with
  | case1 depth => cases h; rfl
  | case2 depth cs ih => simpa [brackets] using ih h
  | case3 cs => cases h
  | case4 depth cs _ _ ih =>
      have shift : depth - 1 + 1 = depth := by omega
      have deeper := ih h
      rw [shift] at deeper
      simpa [brackets] using deeper
  | case5 depth c cs _ _ comma => cases h
  | case6 depth c cs notOpen notClose _ ih => simpa [brackets, notOpen, notClose] using ih h

theorem brackets_of_plain {depth : Nat} {text : List Char} (plain : Plain text) :
    brackets depth text = some depth := by
  induction text with
  | nil => rfl
  | cons c cs ih =>
      obtain ⟨notOpen, notClose, notComma⟩ := plain c (by simp)
      simp only [brackets, notOpen, notClose, notComma, ↓reduceIte, false_and]
      exact ih fun d member => plain d (by simp [member])

namespace Enclosed

variable {text front back front' back' : List Char}

theorem of_plain (plain : Plain text) : Enclosed text := brackets_of_plain plain

theorem at_depth (enclosed : Enclosed text) (depth : Nat) :
    brackets depth text = some depth := by
  induction depth with
  | zero => exact enclosed
  | succ depth ih => exact brackets_succ ih

/-- A text that goes on after a comma outside of brackets is not enclosed. -/
theorem not_comma (enclosed : Enclosed front) : ¬ Enclosed (front ++ ',' :: back) := by
  intro longer
  rw [Enclosed, brackets_append, enclosed] at longer
  simp [brackets] at longer

/-- Two enclosed texts with a comma between them can be told apart. -/
theorem append_comma_inj (enclosed : Enclosed front) (enclosed' : Enclosed front')
    (same : front ++ ',' :: back = front' ++ ',' :: back') : front = front' ∧ back = back' := by
  rcases List.append_eq_append_iff.mp same with ⟨more, rfl, rest⟩ | ⟨more, rfl, rest⟩
  · cases more with
    | nil => simpa using rest
    | cons c cs =>
        cases rest
        exact absurd enclosed' enclosed.not_comma
  · cases more with
    | nil => simpa [eq_comm] using rest
    | cons c cs =>
        cases rest
        exact absurd enclosed enclosed'.not_comma

end Enclosed

theorem Shape.isNameChar_of_isIdentifier {text : List Char} (h : isIdentifier text = true) :
    ∀ c ∈ text, isNameChar c = true := by
  cases text with
  | nil => cases h
  | cons c cs =>
      obtain ⟨start, rest⟩ := Bool.and_eq_true_iff.mp h
      intro d member
      rcases List.mem_cons.mp member with rfl | inRest
      · simp [isNameChar, start]
      · exact List.all_eq_true.mp rest d inRest

theorem Shape.plain_of_isIdentifier {text : List Char} (h : isIdentifier text = true) :
    Plain text := by
  intro c member
  have isName := isNameChar_of_isIdentifier h c member
  refine ⟨?_, ?_, ?_⟩ <;> rintro rfl <;> revert isName <;> decide

theorem Shape.point_not_mem_of_isIdentifier {text : List Char} (h : isIdentifier text = true) :
    '.' ∉ text := by
  intro point
  have isName := isNameChar_of_isIdentifier h '.' point
  revert isName
  decide

@[simp] theorem Primitive.plain_name (p : Primitive) : Plain p.name.toList := by
  cases p with
  | int width => cases width <;> simp [Plain, name]
  | bool | double | string | binary | void => simp [Plain, name]

@[simp] theorem Primitive.point_not_mem_name (p : Primitive) : '.' ∉ p.name.toList := by
  cases p with
  | int width => cases width <;> simp [name]
  | bool | double | string | binary | void => simp [name]

@[simp] theorem toList_qualify (n x : String) :
    (qualify (some n) x).toList = n.toList ++ '.' :: x.toList := by
  simp [qualify]

/-- A qualified name of plain parts is plain. -/
theorem plain_qualify {model : Option String} {name : String}
    (owner : ∀ n, model = some n → Plain n.toList) (plain : Plain name.toList) :
    Plain (qualify model name).toList := by
  cases model with
  | none => exact plain
  | some n =>
      rw [toList_qualify]
      intro c member
      rcases List.mem_append.mp member with front | back
      · exact owner n rfl c front
      · rcases List.mem_cons.mp back with rfl | back
        · decide
        · exact plain c back

namespace Container

variable {c d : Container} {n k : Nat}

/-- The name of a container starts with the name of its constructor. -/
theorem toList_qname_make : (c.make n).qname.toList =
    match c with
    | list e => 'l' :: 'i' :: 's' :: 't' :: '<' :: (e.qname.toList ++ ['>'])
    | set e => 's' :: 'e' :: 't' :: '<' :: (e.qname.toList ++ ['>'])
    | map k v =>
        'm' :: 'a' :: 'p' :: '<' :: (k.qname.toList ++ ',' :: (v.qname.toList ++ ['>'])) := by
  cases c <;> simp [make, Ty.qname]

@[simp] theorem last_make : (c.make n).qname.toList.getLast? = some '>' := by
  rw [toList_qname_make]
  cases c <;> simp [List.getLast?_cons]

@[simp] theorem not_plain_make : ¬ Plain (c.make n).qname.toList := by
  intro plain
  refine (plain '<' ?_).1 rfl
  rw [toList_qname_make]
  cases c <;> simp

theorem enclosed_make (elements : ∀ e ∈ c.elements, Enclosed e.qname.toList) :
    Enclosed (c.make n).qname.toList := by
  rw [toList_qname_make]
  cases c with
  | list e | set e =>
      have inner := elements e (by simp)
      simp [Enclosed, brackets, inner.at_depth]
  | map k v =>
      have key := elements k (by simp)
      have value := elements v (by simp)
      simp [Enclosed, brackets, key.at_depth, value.at_depth]

/-- Containers of one name are equal, if their elements are known by their names. -/
theorem eq_of_qname_make (same : (c.make n).qname = (d.make k).qname)
    (enclosed : ∀ e ∈ c.elements, Enclosed e.qname.toList)
    (enclosed' : ∀ e ∈ d.elements, Enclosed e.qname.toList)
    (unique : ∀ e ∈ c.elements, ∀ e' ∈ d.elements, e.qname = e'.qname → e = e') : c = d := by
  have texts := congrArg String.toList same
  rw [toList_qname_make, toList_qname_make] at texts
  -- The first letter tells the constructors apart.
  cases c <;> cases d <;> simp at texts
  case list.list e e' =>
    exact congrArg list (unique e (by simp) e' (by simp) (String.toList_inj.mp texts))
  case set.set e e' =>
    exact congrArg set (unique e (by simp) e' (by simp) (String.toList_inj.mp texts))
  case map.map k v k' v' =>
    obtain ⟨keys, values⟩ :=
      (enclosed k (by simp)).append_comma_inj (enclosed' k' (by simp)) texts
    have key := unique k (by simp) k' (by simp) (String.toList_inj.mp keys)
    have value := unique v (by simp) v' (by simp)
      (String.toList_inj.mp (List.append_cancel_right values))
    rw [key, value]

end Container

/-- The name of a type without a model is not that of a type in a model: either it has no point, or
it ends with a bracket. -/
theorem Ty.qname_ne_qualify {t : Ty} {n x : String} (unowned : t.modelName? = none)
    (identifier : t.isNamed = true → Shape.isIdentifier t.name.toList = true)
    (plain : Plain x.toList) : t.qname ≠ qualify (some n) x := by
  intro same
  have text : t.qname.toList = n.toList ++ '.' :: x.toList := by rw [same, toList_qualify]
  have point : '.' ∈ t.qname.toList := by simp [text]
  rcases t.elements_eq_nil_or_make with leaf | ⟨c, k, rfl⟩
  · rw [t.qname_eq_qualify, unowned] at point
    cases isNamed : t.isNamed with
    | true => exact Shape.point_not_mem_of_isIdentifier (identifier isNamed) point
    | false =>
        cases t with
        | prim p => exact p.point_not_mem_name point
        | enum | record => cases isNamed
        | list | set | map => cases leaf
  · have last : ('.' :: x.toList).getLast? = some '>' := by
      rw [← Container.last_make (c := c) (n := k), text, List.getLast?_append]
      simp [List.getLast?_cons]
    rcases List.mem_cons.mp (List.mem_of_getLast? last) with isPoint | inside
    · cases isPoint
    · exact (plain '>' inside).2.1 rfl

/-- What stands behind the last point of a name is the name in the model, and what stands before it
is the model. -/
theorem qualify_inj {n n' x x' : String} (free : '.' ∉ x.toList) (free' : '.' ∉ x'.toList)
    (same : qualify (some n) x = qualify (some n') x') : n = n' ∧ x = x' := by
  have texts := congrArg String.toList same
  rw [toList_qualify, toList_qualify] at texts
  -- If one model's name went further, it would take the point into the other name.
  have aligned : n.toList = n'.toList ∧ x.toList = x'.toList := by
    rcases List.append_eq_append_iff.mp texts with ⟨more, fronts, backs⟩ | ⟨more, fronts, backs⟩
    · cases more with
      | nil => exact ⟨by simpa using fronts.symm, by simpa using backs⟩
      | cons c more =>
          rw [(List.cons.inj backs).2] at free
          exact absurd (by simp) free
    · cases more with
      | nil => exact ⟨by simpa using fronts, by simpa using backs.symm⟩
      | cons c more =>
          rw [(List.cons.inj backs).2] at free'
          exact absurd (by simp) free'
  exact ⟨String.toList_inj.mp aligned.1, String.toList_inj.mp aligned.2⟩

/-- A type with a name in a model belongs to the model and has that name. -/
theorem Ty.modelName?_of_qname {t : Ty} {n x : String}
    (identifier : t.isNamed = true → Shape.isIdentifier t.name.toList = true)
    (isIdentifier : Shape.isIdentifier x.toList = true) (same : t.qname = qualify (some n) x) :
    t.modelName? = some n ∧ t.name = x := by
  cases owner : t.modelName? with
  | none =>
      have plain := Shape.plain_of_isIdentifier isIdentifier
      exact absurd same (t.qname_ne_qualify owner identifier plain)
  | some n' =>
      rw [t.qname_eq_qualify, owner] at same
      have named := identifier (Ty.isNamed_of_modelName? owner)
      obtain ⟨rfl, rfl⟩ := qualify_inj (Shape.point_not_mem_of_isIdentifier named)
        (Shape.point_not_mem_of_isIdentifier isIdentifier) same
      exact ⟨rfl, rfl⟩

end IdlGen
