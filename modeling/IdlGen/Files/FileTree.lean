import IdlGen.Files.Path
import IdlGen.SourceError

/-!
# File trees

The files and directories that a run sees, and the pages that the web answers with. A path is walked
segment by segment, and every segment before the last has to be a directory that is there. Reading
and writing are functions of the tree; nothing is written to the web.
-/

namespace IdlGen

/-- What a file holds: text, or bytes that are no UTF-8 text. -/
inductive Content where
  | text (value : String)
  | bytes (value : List UInt8)
deriving DecidableEq, Repr

/-- Text if the bytes are the UTF-8 form of one. -/
def Content.ofBytes (bytes : List UInt8) : Content :=
  match String.fromUTF8? ⟨bytes.toArray⟩ with
  | some s => text s
  | none => .bytes bytes

inductive FileNode where
  | directory
  | file (content : Content)
deriving DecidableEq, Repr

/-- The segments from the root to a node, the last one first. -/
abbrev Location := List String

structure FileTree where
  /-- The working directory. -/
  home : Location
  /-- Everything but the root, each location once. -/
  nodes : List (Location × FileNode)
  /-- The texts behind the addresses that answer. -/
  pages : List (String × String) := []

namespace FileTree

/-- A tree that holds the working directory and nothing in it, where no address answers. -/
def empty (home : Location) : FileTree :=
  { home, nodes := around home }
where
  around : Location → List (Location × FileNode)
    | [] => []
    | name :: up => (name :: up, .directory) :: around up

/-- The path of a location. -/
def pathOf (loc : Location) : String := "/" ++ "/".intercalate loc.reverse

/-- The path of the working directory. -/
def homePath (t : FileTree) : String := pathOf t.home

/-- What is at a location. The root is always there. -/
def node? (t : FileTree) (loc : Location) : Option FileNode :=
  if loc = [] then some .directory else t.nodes.lookup loc

/-- Puts a node at a location, in place of what is there. -/
def put (t : FileTree) (loc : Location) (node : FileNode) : FileTree :=
  { t with nodes := replace t.nodes }
where
  replace : List (Location × FileNode) → List (Location × FileNode)
    | [] => [(loc, node)]
    | (l, n) :: rest => if l = loc then (l, node) :: rest else (l, n) :: replace rest

/-- A tree in which a location and all around it are directories, unless something is there. -/
def addDirectories (t : FileTree) : Location → FileTree
  | [] => t
  | name :: up =>
    let t := t.addDirectories up
    if (t.node? (name :: up)).isSome then t else t.put (name :: up) .directory

/-- Puts a node at a location, inside directories. -/
def place (t : FileTree) (loc : Location) (node : FileNode) : FileTree :=
  (t.addDirectories loc.tail).put loc node

/-- Succeeds at a directory. -/
def enter (t : FileTree) (loc : Location) : Except FileError Unit :=
  match t.node? loc with
  | none => .error .notFound
  | some (.file _) => .error .notADirectory
  | some .directory => .ok ()

/-- Where a segment leads from a directory. -/
def step (loc : Location) : String → Location
  | "." => loc
  | ".." => loc.tail
  | name => name :: loc

/-- Where segments lead from a location. The last step may lead to nothing. -/
def walk (t : FileTree) (loc : Location) : List String → Except FileError Location
  | [] => .ok loc
  | segment :: rest => do
    t.enter loc
    t.walk (step loc segment) rest

/-- Where the walk along a path begins. -/
def origin (t : FileTree) (path : String) : Location :=
  if Text.startsWith path "/" then [] else t.home

/-- Refuses a path that no file can have. -/
def checkPath (path : String) : Except FileError Unit :=
  if path.toList.contains '\x00' then .error .badName
  else if path.isEmpty then .error .notFound
  else .ok ()

/-- The location of a path. A slash at its end asks for a directory. -/
def locate (t : FileTree) (path : String) : Except FileError Location := do
  checkPath path
  let segments := Path.segments path ++ (if Text.endsWith path "/" then ["."] else [])
  t.walk (t.origin path) segments

/-- The node at a path. -/
def find (t : FileTree) (path : String) : Except FileError (Location × FileNode) := do
  let loc ← t.locate path
  match t.node? loc with
  | some node => .ok (loc, node)
  | none => .error .notFound

def isDirectory (t : FileTree) (path : String) : Bool :=
  match t.find path with
  | .ok (_, .directory) => true
  | _ => false

/-- The text of the file at a path. -/
def read (t : FileTree) (path : String) : Except FileError String := do
  match ← t.find path with
  | (_, .directory) => .error .isADirectory
  | (_, .file (.text s)) => .ok s
  | (_, .file (.bytes _)) => .error .notText

/-- The text of the page at an address, if it answers. -/
def fetch? (t : FileTree) (address : String) : Option String := t.pages.lookup address

/-- The names of the files in a directory. -/
def filesIn (t : FileTree) (path : String) : Except FileError (List String) := do
  match ← t.find path with
  | (_, .file _) => .error .notADirectory
  | (dir, .directory) =>
    .ok (t.nodes.filterMap fun
      | (name :: up, .file _) => if up = dir then some name else none
      | _ => none)

/-- The directory that the last segment of a path is in, and that segment. -/
def locateLast (t : FileTree) (path : String) : Except FileError (Location × Option String) := do
  checkPath path
  let segments := Path.segments path
  let dir ← t.walk (t.origin path) segments.dropLast
  t.enter dir
  .ok (dir, segments.getLast?)

/-- Whether a segment names something, rather than a place that is there already. -/
def isName (segment : String) : Bool := segment ≠ "." && segment ≠ ".."

/-- Makes a directory inside one that is there. -/
def makeDirectory (t : FileTree) (path : String) : Except FileError FileTree := do
  let (dir, last) ← t.locateLast path
  match last with
  | none => .error .alreadyExists
  | some name =>
    if isName name && (t.node? (name :: dir)).isNone then .ok (t.put (name :: dir) .directory)
    else .error .alreadyExists

/-- Makes the first of some nested directories, after those around it if need be. What was made
stays when a later step fails. -/
def makeNested (t : FileTree) : List String → Except FileError Unit × FileTree
  | [] => (.error .notFound, t)
  | path :: around =>
    let settle (t : FileTree) (e : FileError) : Except FileError Unit × FileTree :=
      (if t.isDirectory path then .ok () else .error e, t)
    if path.isEmpty then (.ok (), t)
    else
      match t.makeDirectory path with
      | .ok t => (.ok (), t)
      | .error .notFound =>
        match t.makeNested around with
        | (.error e, t) => (.error e, t)
        | (.ok (), t) =>
          match t.makeDirectory path with
          | .ok t => (.ok (), t)
          | .error e => settle t e
      | .error e => settle t e

/-- Makes a directory and all directories around it that are missing. -/
def makeDirectories (t : FileTree) (path : String) : Except FileError Unit × FileTree :=
  t.makeNested (Path.ancestors (path.length + 1) path)

/-- Writes a text file into a directory that is there. -/
def write (t : FileTree) (path text : String) : Except FileError FileTree := do
  let (dir, last) ← t.locateLast path
  match last with
  | none => .error .isADirectory
  | some name =>
    if Text.endsWith path "/" || !isName name then .error .isADirectory
    else
      match t.node? (name :: dir) with
      | some .directory => .error .isADirectory
      | _ => .ok (t.put (name :: dir) (.file (.text text)))

end FileTree

end IdlGen
