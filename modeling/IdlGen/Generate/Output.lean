import IdlGen.Files.SourceRef
import IdlGen.Model.Basic
import IdlGen.Naming
import IdlGen.Spec.Options

/-!
# Names of output files

The directory that generated files go to, and the name of the file for a declaration.
-/

namespace IdlGen

/-- How the name of a declaration becomes the name of a file. -/
structure FileNaming where
  snakeCase : Bool
  before : String
  after : String
  /-- Without a point in front; empty for none. -/
  extension : String
deriving DecidableEq, Repr

namespace FileNaming

/-- The naming that a generator entry asks for, or else its options. -/
def ofConfig (config options : Section) : FileNaming :=
  let lookup (key : String) : String := ((config.text? key).or (options.text? key)).getD ""
  { snakeCase := lookup "filename_case" = "underscore_case"
    before := lookup "filename_prefix"
    after := lookup "filename_suffix"
    extension :=
      match (lookup "filename_extension").toList with
      | '.' :: rest => String.ofList rest
      | cs => String.ofList cs }

/-- The file name without its extension. -/
def baseName (n : FileNaming) (name : String) : String :=
  n.before ++ (if n.snakeCase then Naming.snake name else Naming.upperCamel name) ++ n.after

/-- The file name for a base name. -/
def fileName (n : FileNaming) (base : String) : String :=
  if n.extension.isEmpty then base else base ++ "." ++ n.extension

end FileNaming

namespace Output

def isSlash (c : Char) : Bool := c = '/' || c = '\\'

/-- Drops slashes of both kinds from the end. -/
def dropSlashes (cs : List Char) : List Char := (cs.reverse.dropWhile isSlash).reverse

/-- Drops slashes of both kinds from the end, but leaves one character. -/
def dropExtraSlashes (cs : List Char) : List Char :=
  match cs with
  | [] => []
  | c :: rest => c :: dropSlashes rest

/-- The output directory without a namespace: a directory in the base directory, unless it is
absolute. -/
def baseDirectory (options : Section) : List Char :=
  let dir := match options.text? "base_output_dir", options.text? "output_dir" with
    | some base, some dir =>
      if SourceRef.isAbsolute dir then dir.toList
      else dropSlashes base.toList ++ '/' :: dir.toList
    | none, some dir => dir.toList
    | some base, none => base.toList
    | none, none => []
  dropExtraSlashes dir

/-- The directory for a model's files. A namespace adds a directory for each of its parts. -/
def directory (options : Section) (m : Model) : String :=
  let dir := baseDirectory options
  let dir := match (options.text? "namespace").bind m.namespace? with
    | none => dir
    | some ns =>
      let separator := if dir.isEmpty || dir.getLast? = some '/' then [] else ['/']
      dir ++ separator ++ ns.toList.map fun c => if c = '.' then '/' else c
  if dir.isEmpty then "." else String.ofList dir

end Output

end IdlGen
