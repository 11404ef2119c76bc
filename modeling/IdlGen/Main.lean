import IdlGen.Program

/-!
# The executable

The program is a function of a file tree, so the executable keeps a tree of the files that the
program has asked for and runs it again until it asks for nothing new. Then it writes to the disk
what the program has changed. It has no way to the web, so no address answers.
-/

namespace IdlGen.Main

def version : String := "idlgen 0.1.0"

def usage : String := "\n".intercalate
  ["Generate code from Thrift IDL models using a genspec",
   "",
   "Usage: idlgen [OPTIONS]",
   "",
   "Options:",
   "  -m, --model <PATH_OR_URL>    Thrift IDL file (e.g. <modelname>.thrift), path or URL",
   "  -g, --genspec <PATH_OR_URL>  Generation specification file (<name>.gen); " ++
     "defaults to the only .gen file here",
   "  -o, --outdir <PATH>          Base output directory",
   "  -i, --indir <PATH_OR_URL>    Base template directory",
   "  -c, --charset <CHARSET>      Output charset (only UTF-8 is supported)",
   "  -t, --target <TARGET>...     Genspec target(s) to execute; all runs every target",
   "  -q, --quiet                  Only report warnings and errors",
   "  -h, --help                   Print help",
   "  -V, --version                Print version"]

/-- The location of a path. -/
def locationOf (t : FileTree) (path : String) : Location :=
  (Path.segments path).foldl FileTree.step (t.origin path)

/-- Adds what is on the disk at a path. -/
def fetch (t : FileTree) (path : String) : IO FileTree := do
  try
    let bytes ← IO.FS.readBinFile path
    return t.place (locationOf t path) (.file (Content.ofBytes bytes.toList))
  catch _ =>
    if ← ((← IO.currentDir) / path).isDir then return t.addDirectories (locationOf t path)
    return t

/-- The paths that a run has read. -/
def pathsRead (log : List Event) : List String := log.filterMap fun
  | .load (.reading path) => some path
  | _ => none

/-- Runs the program on more and more of the disk, until it reads nothing new. -/
partial def settle (args : List String) (t : FileTree) (known : List String) :
    IO (FileTree × Program.Ending × World) := do
  let (ending, w) := Program.run args { files := t }
  match (pathsRead w.log).filter (!known.contains ·) with
  | [] => return (t, ending, w)
  | fresh => settle args (← fresh.foldlM fetch t) (known ++ fresh)

/-- Writes what differs between two trees. -/
def commit (before after : FileTree) : IO Unit :=
  after.nodes.forM fun (loc, node) => do
    if before.node? loc ≠ some node then
      match node with
      | .directory => IO.FS.createDirAll (FileTree.pathOf loc)
      | .file (.text text) => IO.FS.writeFile (FileTree.pathOf loc) text
      | .file (.bytes _) => pure ()

/-- The working directory with the spec files in it. -/
def workingTree : IO FileTree := do
  let dir ← IO.currentDir
  let home := (Path.segments dir.toString).reverse
  let names := (← dir.readDir).toList.map (·.fileName)
  (names.filter (Text.endsWith · Plan.specExtension)).foldlM fetch (.empty home)

/-- Prints the events that are worth telling. -/
def report (quiet : Bool) (log : List Event) : IO Unit :=
  log.forM fun e => do
    let shown := match e.level with
      | .error | .warn => true
      | .info => !quiet
      | .debug => false
    if shown then IO.println s!"{e.level.text} {e.message}"

def run (args : List String) : IO UInt32 := do
  let (before, ending, w) ← settle args (← workingTree) []
  commit before w.files
  let quiet := ((CommandLine.parse args).toOption.map (·.quiet)).getD false
  report quiet w.log
  match ending with
  | .refused .help => IO.println usage
  | .refused .version => IO.println version
  | .refused fault => IO.eprintln s!"error: {fault.message}"
  | .failed cause => IO.eprintln s!"Error: {cause.message}"
  | .finished _ => pure ()
  return UInt32.ofNat ending.exitCode

end IdlGen.Main

def main (args : List String) : IO UInt32 := IdlGen.Main.run args
