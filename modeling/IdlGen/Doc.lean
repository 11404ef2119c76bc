import IdlGen.Text.Blank

/-!
# Documentation comments

The lines of a comment that opens with `/**`. Layout, the stars at the start of a line and the
marks of the comment are dropped; blank lines are dropped from the two ends only.
-/

namespace IdlGen

/-- Lines of documentation; `none` where there is none. -/
abbrev Docs := Option (List String)

namespace Docs

/-- Cuts after every line feed. The end of a line is a line feed with a carriage return before it,
if there is one; a line feed at the very end starts no further line. -/
def splitLines (cs : List Char) : List (List Char) :=
  go [] cs
where
  close (line : List Char) : List Char :=
    match line with
    | '\r' :: rest => rest.reverse
    | _ => line.reverse
  go (line : List Char) : List Char → List (List Char)
    | [] => if line.isEmpty then [] else [line.reverse]
    | '\n' :: rest => close line :: go [] rest
    | c :: rest => go (c :: line) rest

/-- Drops stars from the front, but never the star of a `*/`. -/
def dropStars : List Char → List Char
  | '*' :: '/' :: rest => '*' :: '/' :: rest
  | '*' :: rest => dropStars rest
  | cs => cs

/-- Drops a closing `*/`. -/
def dropClose (cs : List Char) : List Char :=
  match cs.reverse with
  | '/' :: '*' :: rest => rest.reverse
  | _ => cs

/-- Drops an opening `/*`. -/
def dropOpen : List Char → List Char
  | '/' :: '*' :: rest => rest
  | cs => cs

/-- The words of one line of a comment. -/
def lineText (line : List Char) : List Char :=
  let body := dropClose (dropStars (dropOpen (Text.trimBoth line)))
  Text.trimBack (match body with
    | ' ' :: rest => rest
    | _ => body)

/-- Drops blank lines from both ends. -/
def trimLines (lines : List (List Char)) : List (List Char) :=
  ((lines.dropWhile Text.allBlank).reverse.dropWhile Text.allBlank).reverse

/-- The lines of a documentation comment; `none` for any other comment and for an empty one. -/
def ofComment (image : List Char) : Docs :=
  match image with
  | '/' :: '*' :: '*' :: _ =>
    match trimLines ((splitLines image).map lineText) with
    | [] => none
    | lines => some (lines.map String.ofList)
  | _ => none

end Docs

end IdlGen
