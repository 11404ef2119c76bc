import IdlGen.Template.Basic
import IdlGen.Template.Error
import IdlGen.Template.HelperSet
import IdlGen.Text.Markup

/-!
# Rendering

A template is rendered with the names that are in view: those of its context, and inside a
repetition the current item and how far the repetition is. A name that nothing else has may stand
for a function.
-/

namespace IdlGen.Template

/-- The names in view, the innermost first. -/
abbrev Scope := List (String × Datum)

/-- What a name stands for. -/
def meaning (helpers : HelperSet) (scope : Scope) (id : String) : Datum :=
  match scope.lookup id with
  | some d => d
  | none => if (helpers.functions.lookup id).isSome then .function id else .undefined

/-- Applies the operation of a name. -/
def apply (operations : List (String × Operation)) (name : String) (unknown : TemplateError)
    (args : List Datum) : Except TemplateError Datum :=
  match operations.lookup name with
  | none => .error unknown
  | some operation =>
    match operation args with
    | some result => .ok (.tree result)
    | none => .error (.badArguments name)

/-- Whether two values compare as they have to. -/
def Relation.holds (r : Relation) (a b : Datum) : Bool :=
  match r with
  | same => a.same b
  | different => !(a.same b)

mutual

def eval (helpers : HelperSet) (scope : Scope) : Expr → Except TemplateError Datum
  | .literal value => .ok (.tree value)
  | .name id => .ok (meaning helpers scope id)
  | .member parent key => do
    match ← eval helpers scope parent with
    | .undefined => .error .undefinedParent
    | d => .ok (d.member key)
  | .item parent index => do
    let parent ← eval helpers scope parent
    let index ← eval helpers scope index
    match parent with
    | .undefined => .error .undefinedParent
    | d => .ok (d.item index)
  | .filter name input args => do
    let input ← eval helpers scope input
    let args ← evalAll helpers scope args
    apply helpers.filters name (.unknownFilter name) (input :: args)
  | .call callee args => do
    let args ← evalAll helpers scope args
    match callee with
    | .name id =>
      if (scope.lookup id).isSome then .error .notCallable
      else apply helpers.functions id (.unknownFunction id) args
    | _ => .error .notCallable
  | .negation e => do
    let d ← eval helpers scope e
    .ok (.ofBool !d.isTrue)
  | .comparison first others => do
    let d ← eval helpers scope first
    let holds ← compareAll helpers scope d others
    .ok (.ofBool holds)

def evalAll (helpers : HelperSet) (scope : Scope) : List Expr → Except TemplateError (List Datum)
  | [] => .ok []
  | e :: rest => do
    let d ← eval helpers scope e
    let ds ← evalAll helpers scope rest
    .ok (d :: ds)

/-- Whether each value compares with the one after it as it has to. What follows the first that does
not is left alone. -/
def compareAll (helpers : HelperSet) (scope : Scope) (d : Datum) :
    List (Relation × Expr) → Except TemplateError Bool
  | [] => .ok true
  | (relation, e) :: rest => do
    let next ← eval helpers scope e
    if relation.holds d next then compareAll helpers scope next rest else .ok false

end

/-- The items of a repetition from a place on, each with how far the repetition is then. -/
def itemsFrom (count : Option Nat) (position : Nat) (previous : Option Tree) :
    List Tree → List (Tree × Progress)
  | [] => []
  | item :: rest =>
    (item, ⟨position, count, previous, rest.head?⟩) ::
      itemsFrom count (position + 1) (some item) rest

/-- The scopes of the items of a value, in turn. -/
def itemScopes (scope : Scope) (name : String) (value : Datum) (items : List Tree) : List Scope :=
  let count := if value.isCounted then some items.length else none
  (itemsFrom count 0 none items).map fun (item, progress) =>
    (name, .tree item) :: ("loop", .progress progress) :: scope

/-- What is written for a value. -/
def written (markup : Bool) (d : Datum) : String :=
  if markup then Text.escapeMarkup d.print else d.print

mutual

def renderNode (helpers : HelperSet) (markup : Bool) (scope : Scope) :
    Node → Except TemplateError String
  | .text content => .ok content
  | .value e => do
    let d ← eval helpers scope e
    .ok (written markup d)
  | .each name items body otherwise => do
    let value ← eval helpers scope items
    match value.items? with
    | none => .error .notIterable
    | some [] => renderAll helpers markup scope otherwise
    | some items => do
      let texts ← (itemScopes scope name value items).mapM fun inner =>
        renderAll helpers markup inner body
      .ok (String.join texts)
  | .choice test body otherwise => do
    let d ← eval helpers scope test
    if d.isTrue then renderAll helpers markup scope body
    else renderAll helpers markup scope otherwise

def renderAll (helpers : HelperSet) (markup : Bool) (scope : Scope) :
    List Node → Except TemplateError String
  | [] => .ok ""
  | n :: rest => do
    let first ← renderNode helpers markup scope n
    let others ← renderAll helpers markup scope rest
    .ok (first ++ others)

end

/-- The text of a template for a context. -/
def render (t : Template) (helpers : HelperSet) (context : Section) :
    Except TemplateError String :=
  renderAll (helpers.append .builtin) t.markup (context.map fun (key, v) => (key, .tree v)) t.nodes

end IdlGen.Template
