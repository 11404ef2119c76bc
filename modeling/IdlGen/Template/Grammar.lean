import IdlGen.Template.Basic
import IdlGen.Template.Piece
import IdlGen.Text.Affix

/-!
# The grammar of templates

An expression is an operand, possibly negated or compared. An operand is a literal or a name,
followed by the parts and calls that are asked of it and by the filters it goes through, so filters
bind tighter than comparisons. Tags nest: what a tag opens ends with the tag of its own kind. How
deeply a template nests is limited, and `room` is how many levels are left.
-/

namespace IdlGen.Template

/-- How many levels a template can have. -/
def maxDepth : Nat := 150

/-- One level deeper. -/
def deeper (room : Nat) : Except TemplateError Nat :=
  match room with
  | 0 => .error .tooDeep
  | room + 1 => .ok room

/-- The literal or name that a word stands for. -/
def wordExpr : String → Expr
  | "true" | "True" => .literal (.bool true)
  | "false" | "False" => .literal (.bool false)
  | "none" | "None" => .literal .null
  | id => .name id

/-- The text in the literals that follow, which are read as one. -/
def moreText : (toks : List Tok) → Scanned toks String
  | .str s :: rest =>
    let ⟨more, after, h⟩ := moreText rest
    ⟨s ++ more, after, Nat.le_succ_of_le h⟩
  | _ => .nothing ""

/-- A literal or a name. -/
def primary (toks : List Tok) : Except TemplateError (Parsed toks Expr) :=
  match toks with
  | .word id :: _ => .ok (.next (wordExpr id))
  | .number value :: _ => .ok (.next (.literal value))
  | .str s :: rest =>
    let ⟨more, after, h⟩ := moreText rest
    .ok ⟨.literal (.str (s ++ more)), after, Nat.lt_succ_of_le h⟩
  | _ => .error .malformedExpression

/-- The relation that a token stands for. -/
def relation? : Tok → Option Relation
  | .mark "==" => some .same
  | .mark "!=" => some .different
  | _ => none

/-- Passes over a mark. -/
def skipMark? (text : String) : (toks : List Tok) → Option (Later toks)
  | .mark found :: rest => if found = text then some ⟨rest, by simp⟩ else none
  | _ => none

/-- The name of a filter, whose further parts have points between them. -/
def filterName (name : String) : (toks : List Tok) → Scanned toks String
  | .mark "." :: .word part :: rest =>
    let ⟨whole, after, h⟩ := filterName (name ++ "." ++ part) rest
    ⟨whole, after, Nat.le_succ_of_le (Nat.le_succ_of_le h)⟩
  | _ => .nothing name

/-- Places that can stand behind a point are below this one. -/
def maxPlace : Int := Nat.pow 2 64

/-- An expression and what it is compared with, if anything. -/
def compared (first : Expr) : List (Relation × Expr) → Expr
  | [] => first
  | others => .comparison first others

mutual

/-- An expression inside another one or inside a tag. -/
def expr (room : Nat) (toks : List Tok) : Except TemplateError (Parsed toks Expr) := do
  exprHere (← deeper room) toks
termination_by (toks.length, 3)

/-- An expression on the level of what it is part of. -/
def exprHere (room : Nat) (toks : List Tok) : Except TemplateError (Parsed toks Expr) :=
  match toks with
  | .word "not" :: rest => do
    let ⟨e, rest, _⟩ ← exprHere room rest
    .ok ⟨.negation e, rest, by simp; omega⟩
  | toks => do
    let ⟨first, rest, _⟩ ← operand room toks
    let ⟨others, rest, _⟩ ← comparisons room rest
    .ok ⟨compared first others, rest, by omega⟩
termination_by (toks.length, 2)

/-- What an operand is compared with, in order. -/
def comparisons (room : Nat) (toks : List Tok) :
    Except TemplateError (Scanned toks (List (Relation × Expr))) :=
  match toks with
  | [] => .ok (.nothing [])
  | t :: rest =>
    match relation? t with
    | none => .ok (.nothing [])
    | some relation => do
      let ⟨other, rest, _⟩ ← operand room rest
      let ⟨others, rest, _⟩ ← comparisons room rest
      .ok ⟨(relation, other) :: others, rest, by simp; omega⟩
termination_by (toks.length, 0)

def operand (room : Nat) (toks : List Tok) : Except TemplateError (Parsed toks Expr) := do
  let _ ← deeper room
  let ⟨e, rest, _⟩ ← primary toks
  let ⟨e, rest, _⟩ ← parts room e rest
  let ⟨e, rest, _⟩ ← filters room e rest
  .ok ⟨e, rest, by omega⟩
termination_by (toks.length, 1)

/-- The members, items and calls of `e` that follow. -/
def parts (room : Nat) (e : Expr) (toks : List Tok) :
    Except TemplateError (Scanned toks Expr) :=
  match toks with
  | .mark "." :: .word key :: rest => do
    let ⟨e, rest, _⟩ ← parts room (.member e key) rest
    .ok ⟨e, rest, by simp; omega⟩
  | .mark "." :: .number (.int place) :: rest =>
    if place < maxPlace then do
      let ⟨e, rest, _⟩ ← parts room (.item e (.literal (.int place))) rest
      .ok ⟨e, rest, by simp; omega⟩
    else .error .malformedExpression
  | .mark "[" :: rest => do
    let ⟨index, rest, _⟩ ← expr room rest
    match skipMark? "]" rest with
    | none => .error .malformedExpression
    | some ⟨rest, _⟩ => do
      let ⟨e, rest, _⟩ ← parts room (.item e index) rest
      .ok ⟨e, rest, by simp; omega⟩
  | .mark "(" :: rest => do
    let ⟨args, rest, _⟩ ← arguments room rest
    let ⟨e, rest, _⟩ ← parts room (.call e args) rest
    .ok ⟨e, rest, by simp; omega⟩
  | toks => .ok (.nothing e)
termination_by (toks.length, 0)

/-- The filters that `e` goes through. -/
def filters (room : Nat) (e : Expr) (toks : List Tok) :
    Except TemplateError (Scanned toks Expr) :=
  match toks with
  | .mark "|" :: .word name :: rest =>
    let ⟨name, rest, _⟩ := filterName name rest
    match skipMark? "(" rest with
    | some ⟨rest, _⟩ => do
      let ⟨args, rest, _⟩ ← arguments room rest
      let ⟨e, rest, _⟩ ← filters room (.filter name e args) rest
      .ok ⟨e, rest, by simp; omega⟩
    | none => do
      let ⟨e, rest, _⟩ ← filters room (.filter name e []) rest
      .ok ⟨e, rest, by simp; omega⟩
  | toks => .ok (.nothing e)
termination_by (toks.length, 0)

/-- The arguments up to the closing parenthesis, with commas between them. -/
def arguments (room : Nat) (toks : List Tok) : Except TemplateError (Parsed toks (List Expr)) :=
  match skipMark? ")" toks with
  | some ⟨rest, h⟩ => .ok ⟨[], rest, h⟩
  | none => do
    let ⟨arg, rest, _⟩ ← expr room toks
    match skipMark? "," rest with
    | some ⟨rest, _⟩ => do
      let ⟨args, rest, _⟩ ← arguments room rest
      .ok ⟨arg :: args, rest, by omega⟩
    | none =>
      match skipMark? ")" rest with
      | some ⟨rest, _⟩ => .ok ⟨[arg], rest, by omega⟩
      | none => .error .malformedExpression
termination_by (toks.length, 4)

end

/-- What was read, if it takes up all tokens. -/
def whole {toks : List Tok} (found : Except TemplateError (Parsed toks Expr)) :
    Except TemplateError Expr :=
  match found with
  | .error e => .error e
  | .ok ⟨e, [], _⟩ => .ok e
  | .ok _ => .error .malformedExpression

/-- Names that no repetition can give to its items. -/
def reserved : List String :=
  ["true", "True", "false", "False", "none", "None", "loop", "self"]

/-- The name of the items and the value they are from. -/
def eachHead (room : Nat) (toks : List Tok) : Except TemplateError (String × Expr) :=
  match toks with
  | .word name :: .word "in" :: rest =>
    if reserved.contains name then .error .malformedTag
    else do .ok (name, ← whole (exprHere room rest))
  | _ => .error .malformedTag

/-- Passes over a tag that is a single word. -/
def endTag (word : String) (ps : List Piece) : Except TemplateError (Later ps) :=
  match ps with
  | .tag [.word found] :: rest =>
    if found = word then .ok ⟨rest, by simp⟩ else .error .malformedTag
  | _ => .error .malformedTag

mutual

/-- The nodes up to a tag that opens nothing, or up to the end. -/
def block (room : Nat) (ps : List Piece) : Except TemplateError (Scanned ps (List Node)) :=
  match ps with
  | [] => .ok (.nothing [])
  | .text content :: rest => do
    let ⟨ns, rest, _⟩ ← block room rest
    .ok ⟨.text (String.ofList content) :: ns, rest, by simp; omega⟩
  | .value toks :: rest => do
    let e ← whole (expr room toks)
    let ⟨ns, rest, _⟩ ← block room rest
    .ok ⟨.value e :: ns, rest, by simp; omega⟩
  | .tag (.word "for" :: head) :: rest => do
    let inner ← deeper room
    let (name, items) ← eachHead inner head
    let ⟨body, rest, _⟩ ← block inner rest
    let ⟨otherwise, rest, _⟩ ← eachOtherwise inner rest
    let ⟨ns, rest, _⟩ ← block room rest
    .ok ⟨.each name items body otherwise :: ns, rest, by simp; omega⟩
  | .tag (.word "if" :: head) :: rest => do
    let inner ← deeper room
    let test ← whole (exprHere inner head)
    let ⟨body, rest, _⟩ ← block inner rest
    let ⟨otherwise, rest, _⟩ ← choiceOtherwise inner rest
    let ⟨ns, rest, _⟩ ← block room rest
    .ok ⟨.choice test body otherwise :: ns, rest, by simp; omega⟩
  | ps => .ok (.nothing [])
termination_by (ps.length, 1)

/-- The part for no items, if there is one, and the end of a repetition. -/
def eachOtherwise (room : Nat) (ps : List Piece) :
    Except TemplateError (Parsed ps (List Node)) :=
  match ps with
  | .tag [.word "else"] :: rest => do
    let ⟨ns, rest, _⟩ ← block room rest
    let ⟨rest, _⟩ ← endTag "endfor" rest
    .ok ⟨ns, rest, by simp; omega⟩
  | ps => do
    let ⟨rest, h⟩ ← endTag "endfor" ps
    .ok ⟨[], rest, h⟩
termination_by (ps.length, 0)

/-- The other parts of a choice, up to its end. -/
def choiceOtherwise (room : Nat) (ps : List Piece) :
    Except TemplateError (Parsed ps (List Node)) :=
  match ps with
  | .tag (.word "elif" :: head) :: rest => do
    let test ← whole (exprHere room head)
    let ⟨body, rest, _⟩ ← block room rest
    let ⟨otherwise, rest, _⟩ ← choiceOtherwise room rest
    .ok ⟨[.choice test body otherwise], rest, by simp; omega⟩
  | .tag [.word "else"] :: rest => do
    let ⟨ns, rest, _⟩ ← block room rest
    let ⟨rest, _⟩ ← endTag "endif" rest
    .ok ⟨ns, rest, by simp; omega⟩
  | ps => do
    let ⟨rest, h⟩ ← endTag "endif" ps
    .ok ⟨[], rest, h⟩
termination_by (ps.length, 0)

end

/-- A file name without the extension that only says that the file is a template. -/
def plainName (name : String) : String :=
  match [".j2", ".jinja2", ".jinja"].find? (Text.endsWith name) with
  | some extension => Text.dropEnd name extension.length
  | none => name

/-- Whether values in a template of this name are written for markup. -/
def forMarkup (name : String) : Bool :=
  match (Text.split '.' (plainName name).toList).getLast? with
  | some extension => ["html", "htm", "xml"].contains (String.ofList extension)
  | none => false

/-- Reads a template. A line end at the end of its text is dropped. -/
def parse (name text : String) : Except TemplateError Template := do
  let ⟨ns, rest, _⟩ ← block maxDepth (← pieces false (dropLineEnd text.toList))
  match rest with
  | [] => .ok { nodes := ns, markup := forMarkup name }
  | _ => .error .malformedTag

end IdlGen.Template
