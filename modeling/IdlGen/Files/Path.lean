import IdlGen.Text.Affix

/-!
# Paths

A path is a text of segments between slashes. Empty segments and the segment `.` say nothing, except
that a path may start with a slash or with `.`; the text of a path is otherwise kept as written.
-/

namespace IdlGen.Path

/-- The number of characters in front that are no segment: a slash, or the `.` that a path starts
with. -/
def lead : List Char → Nat
  | '/' :: _ => 1
  | ['.'] => 1
  | '.' :: '/' :: _ => 1
  | _ => 0

/-- Drops what says nothing from the end of a path. The path is given from its end. -/
def trimEnd : List Char → List Char
  | '/' :: rest => trimEnd rest
  | '.' :: '/' :: rest => trimEnd rest
  | ['.'] => []
  | cs => cs

/-- The segments from the end, without those in front that say nothing. -/
def fromEnd (cs : List Char) : List Char := trimEnd (cs.drop (lead cs)).reverse

/-- The last segment, unless it is `..`. -/
def fileName? (path : String) : Option String :=
  let segment := (fromEnd path.toList).takeWhile (· ≠ '/')
  if segment = [] || segment = ['.', '.'] then none else some (String.ofList segment.reverse)

/-- The path without its last segment. The root and the empty path have none to drop. -/
def parent? (path : String) : Option String :=
  let cs := path.toList
  match fromEnd cs with
  | [] => if cs = [] || cs.head? = some '/' then none else some ""
  | body =>
    let rest := trimEnd ((body.dropWhile (· ≠ '/')).drop 1)
    some (String.ofList (cs.take (lead cs) ++ rest.reverse))

/-- The path and all it is inside of, at most `n` of them. -/
def ancestors : Nat → String → List String
  | 0, _ => []
  | n + 1, path =>
    path :: match parent? path with
      | some up => ancestors n up
      | none => []

/-- `name` inside the directory `dir`. -/
def join (dir name : String) : String :=
  if Text.startsWith name "/" || dir.isEmpty then name
  else if Text.endsWith dir "/" then dir ++ name
  else dir ++ "/" ++ name

/-- The segments that are not empty. -/
def segments (path : String) : List String :=
  ((Text.split '/' path.toList).filter (!·.isEmpty)).map String.ofList

end IdlGen.Path
