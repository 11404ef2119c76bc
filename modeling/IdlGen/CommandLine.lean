import IdlGen.Tree

/-!
# The command line

Flags have a letter and a word. A value follows its flag, is attached to the letter, or follows an
equals sign; letters can be grouped. A word that looks like a flag is never taken for a value. After
`--` there are no more flags, and words that belong to no flag are refused.

A flag whose values are still being read is settled when the next flag is known, so an unknown flag
is reported before a value that is missing.
-/

namespace IdlGen

namespace CommandLine

inductive Flag where
  | model | genspec | outdir | indir | charset | target | quiet | help | version
deriving DecidableEq, Repr

namespace Flag

def all : List Flag := [model, genspec, outdir, indir, charset, target, quiet, help, version]

def word : Flag → String
  | model => "model"
  | genspec => "genspec"
  | outdir => "outdir"
  | indir => "indir"
  | charset => "charset"
  | target => "target"
  | quiet => "quiet"
  | help => "help"
  | version => "version"

def letter : Flag → Char
  | model => 'm'
  | genspec => 'g'
  | outdir => 'o'
  | indir => 'i'
  | charset => 'c'
  | target => 't'
  | quiet => 'q'
  | help => 'h'
  | version => 'V'

def takesValue : Flag → Bool
  | quiet | help | version => false
  | _ => true

/-- The option that the value of a flag becomes. -/
def option : Flag → String
  | model => "model_file"
  | genspec => "genspec_file"
  | outdir => "base_output_dir"
  | indir => "base_input_dir"
  | charset => "output_charset"
  | f => f.word

def ofWord? (word : String) : Option Flag := all.find? (·.word = word)

def ofLetter? (letter : Char) : Option Flag := all.find? (·.letter = letter)

end Flag

/-- Why a command line asks for nothing to be generated. -/
inductive Fault where
  | unknownArgument (arg : String)
  | missingValue (flag : Flag)
  | repeated (flag : Flag)
  | unneededValue (flag : Flag)
  | help
  | version
deriving DecidableEq, Repr

def Fault.message : Fault → String
  | unknownArgument arg => s!"unexpected argument {arg}"
  | missingValue flag => s!"a value is required for --{flag.word}"
  | repeated flag => s!"--{flag.word} cannot be used multiple times"
  | unneededValue flag => s!"--{flag.word} takes no value"
  | help => "help"
  | version => "version"

structure Settings where
  /-- The values of flags that take one, each flag at most once. -/
  values : List (Flag × String) := []
  targets : List String := []
  quiet : Bool := false
deriving DecidableEq, Repr

namespace Settings

/-- Gives a flag the values that were read for it. Only targets can be given again. -/
def assign (s : Settings) (flag : Flag) : List String → Except Fault Settings
  | [] => .error (.missingValue flag)
  | value :: more =>
    if flag = .target then .ok { s with targets := s.targets ++ value :: more }
    else if (s.values.lookup flag).isSome then .error (.repeated flag)
    else .ok { s with values := s.values ++ [(flag, value)] }

/-- The options that the settings stand for. -/
def options (s : Settings) : Section :=
  let single := [Flag.model, .genspec, .outdir, .indir, .charset].filterMap fun flag =>
    (s.values.lookup flag).map fun value => (flag.option, Tree.str value)
  let targets := if s.targets.isEmpty then [] else
    [(Flag.target.option, Tree.list (s.targets.map .str))]
  single ++ targets

end Settings

/-- How far a command line has been read. -/
structure Progress where
  settings : Settings := {}
  /-- The flag whose values are being read, and those so far. -/
  pending : Option (Flag × List String) := none
  /-- Whether the next word can be a value of that flag. -/
  wantsMore : Bool := false

namespace Progress

/-- Settles the flag whose values are being read. -/
def resolve (p : Progress) : Except Fault Settings :=
  match p.pending with
  | none => .ok p.settings
  | some (flag, values) => p.settings.assign flag values

/-- Starts to read the values of a flag. -/
def start (p : Progress) (flag : Flag) : Except Fault Progress := do
  .ok { settings := ← p.resolve, pending := some (flag, []), wantsMore := true }

/-- Takes a flag together with its value. -/
def attach (p : Progress) (flag : Flag) (value : String) : Except Fault Progress := do
  .ok { settings := ← (← p.resolve).assign flag [value] }

/-- Takes a flag that has no value. -/
def raise (p : Progress) (flag : Flag) : Except Fault Progress := do
  let s ← p.resolve
  match flag with
  | .help => .error .help
  | .version => .error .version
  | flag =>
    if s.quiet then .error (.repeated flag) else .ok { settings := { s with quiet := true } }

/-- Takes a word that is no flag. -/
def take (p : Progress) (word : String) : Except Fault Progress :=
  match p.wantsMore, p.pending with
  | true, some (flag, values) =>
    .ok { p with pending := some (flag, values ++ [word]), wantsMore := flag = .target }
  | _, _ => .error (.unknownArgument word)

/-- Takes the letters after a hyphen. -/
def letters (p : Progress) : List Char → Except Fault Progress
  | [] => .ok p
  | c :: rest =>
    match Flag.ofLetter? c with
    | none => .error (.unknownArgument (String.ofList ['-', c]))
    | some flag =>
      if flag.takesValue then
        match rest with
        | [] => p.start flag
        | '=' :: value => p.attach flag (String.ofList value)
        | value => p.attach flag (String.ofList value)
      else
        match p.raise flag with
        | .error e => .error e
        | .ok p => p.letters rest

/-- Takes what follows two hyphens: a word, and a value if there is an equals sign. -/
def long (p : Progress) (cs : List Char) : Except Fault Progress :=
  let word := String.ofList (cs.takeWhile (· ≠ '='))
  let value := (cs.dropWhile (· ≠ '=')).tail?.map String.ofList
  match Flag.ofWord? word with
  | none => .error (.unknownArgument (String.ofList ('-' :: '-' :: cs)))
  | some flag =>
    match flag.takesValue, value with
    | true, some value => p.attach flag value
    | true, none => p.start flag
    | false, some _ => .error (.unneededValue flag)
    | false, none => p.raise flag

/-- Reads the rest of a command line. -/
def read (p : Progress) : List String → Except Fault Settings
  | [] => p.resolve
  | "--" :: rest =>
    match rest with
    | [] => p.resolve
    | word :: _ => .error (.unknownArgument word)
  | arg :: rest => do
    let p ← match arg.toList with
      | '-' :: '-' :: cs => p.long cs
      | '-' :: c :: cs => p.letters (c :: cs)
      | _ => p.take arg
    p.read rest

end Progress

/-- Reads a command line, without the name of the program. -/
def parse (args : List String) : Except Fault Settings := Progress.read {} args

end CommandLine

end IdlGen
