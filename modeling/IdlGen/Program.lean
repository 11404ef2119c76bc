import IdlGen.CommandLine
import IdlGen.Generate.Run
import IdlGen.Generate.TemplateBackend

/-!
# The program

What the command line does: it generates in the working directory what the flags ask for.
-/

namespace IdlGen.Program

/-- How the program ends. -/
inductive Ending where
  | refused (fault : CommandLine.Fault)
  | failed (cause : GenError)
  | finished (report : Report)

/-- The exit code. Entries that failed or were skipped do not show in it. -/
def Ending.exitCode : Ending → Nat
  | refused .help => 0
  | refused .version => 0
  | refused _ => 2
  | failed _ => 1
  | finished _ => 0

/-- Generates with the options of the command line. -/
def generate (options : Section) : RunM Report := do
  let plan ← Plan.load options (← RunM.files).homePath
  let report ← plan.run .standard
  if 0 < report.failed || 0 < report.skipped then RunM.tell (.shortfall report)
  return report

/-- Runs the program on a command line. -/
def run (args : List String) (w : World) : Ending × World :=
  match CommandLine.parse args with
  | .error fault => (.refused fault, w)
  | .ok settings =>
    match generate settings.options w with
    | (.ok report, w) => (.finished report, w)
    | (.error cause, w) => (.failed cause, w)

end IdlGen.Program
