import IdlGen.Files.Path
import IdlGen.Text.Blank

/-!
# Source references

Where a definition, spec or template is: nowhere, at a path, or at a web address. References are
resolved against directories and followed from one file to the files it names.
-/

namespace IdlGen

inductive SourceRef where
  | nowhere
  | file (path : String)
  | url (address : String)
deriving DecidableEq, Repr

namespace SourceRef

def isUrl (text : String) : Bool := Text.startsWith text "http:" || Text.startsWith text "https:"

/-- Whether a path starts at a root: a slash, or one ASCII character and a colon. -/
def isAbsolute (text : String) : Bool :=
  match text.toList with
  | '/' :: _ => true
  | c :: ':' :: _ => c.toNat < 128
  | _ => false

/-- Whether a path does not depend on the directory it is resolved in. -/
def standsAlone (text : String) : Bool := isAbsolute text || isUrl text

def ofText (text : String) : SourceRef := if isUrl text then url text else file text

/-- `rest` behind the directory `dir`, with one slash between them. -/
def under (dir rest : String) : String :=
  if Text.endsWith dir "/" || Text.endsWith dir "\\" then dir ++ rest else dir ++ "/" ++ rest

/-- The text without blanks at its ends; a blank text counts as absent. -/
def nonBlank? (text : Option String) : Option String :=
  (text.map Text.trim).filter (!·.isEmpty)

/-- Resolves a file against a base directory and a directory in it. A file that stands alone needs
neither, and a directory that stands alone replaces the base. -/
def resolve (base dir file : Option String) : SourceRef :=
  match nonBlank? file with
  | none => nowhere
  | some file =>
    if standsAlone file then ofText file
    else
      let dir := match nonBlank? base, nonBlank? dir with
        | none, dir => dir
        | some base, none => some base
        | some base, some dir => some (if standsAlone dir then dir else under base dir)
      match dir with
      | some dir => ofText (under dir file)
      | none => ofText file

/-- The reference as messages show it. -/
def render : SourceRef → String
  | nowhere => ""
  | file path => path
  | url address => address

/-- The part of an address after its last slash, and the part before it if there is a slash. -/
def splitAddress (address : String) : String × Option String :=
  let fromEnd := address.toList.reverse
  let name := fromEnd.takeWhile (· ≠ '/')
  let before := match fromEnd.dropWhile (· ≠ '/') with
    | _ :: rest => some (String.ofList rest.reverse)
    | [] => none
  (String.ofList name.reverse, before)

/-- The last part of the path or address. -/
def fileName? : SourceRef → Option String
  | nowhere => none
  | file path => Path.fileName? path
  | url address => some (splitAddress address).1 |>.filter (!·.isEmpty)

/-- The extension of definition files. -/
def definitionExtension : String := ".thrift"

/-- The name of the model that a definition file declares: its file name without the extension. -/
def modelName? (r : SourceRef) : Option String :=
  r.fileName?.map fun name =>
    if Text.endsWith name definitionExtension then Text.dropEnd name definitionExtension.length
    else name

/-- The directory that the reference is in. -/
def parent : SourceRef → SourceRef
  | nowhere => nowhere
  | file path => file ((Path.parent? path).getD "")
  | url address => url ((splitAddress address).2.getD address)

/-- A file in the directory that the reference stands for. -/
def child (r : SourceRef) (name : String) : SourceRef :=
  if standsAlone name then ofText name
  else
    match r with
    | nowhere => ofText name
    | file dir => file (Path.join dir name)
    | url address => url (under address name)

end SourceRef

end IdlGen
