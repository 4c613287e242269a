import Parley.Shell.Script
import Parley.Startup.Settings

/-! A whole run of the program, from its words and its input to its exit code and its output. Errors
at the start and an input that cannot be read end it with code 1, wrong options with code 2. -/
namespace Parley

structure RunResult where
  code : Nat
  out : Text
  deriving DecidableEq, Repr

structure Surroundings where
  files : Files
  places : Places
  directory : Bytes
  launcher : Interpreter.Launcher

def missingProgram (program : Text) : Text :=
  "failed to spawn ".toList ++ program ++ ": Unable to spawn ".toList ++ program ++
    " because it doesn\x27t exist on the filesystem (ENOENT: No such file or directory)".toList

def noLauncher : Interpreter.Launcher := fun _ request =>
  .error (.spawn (missingProgram request.invocation.program))

def Surroundings.shell (w : Surroundings) (c : Config) : Shell where
  desk := {
    registry := { config := c }
    pool := { launcher := w.launcher }
    directory := w.directory }
  files := w.files

/-- Reads the input, after a first session if the options ask for one. -/
def Shell.session (s : Shell) (start : Bool) (input : List Supply) : Progress Unit :=
  if start then
    match s.execute (.run none) with
    | (.error t, s) => (.error t, s)
    | (.ok _, s) => s.runScript input
  else s.runScript input

def runProgram (w : Surroundings) (words : List Text) (input : List Supply) : RunResult :=
  match Options.parse words with
  | .error .help => ⟨0, usageText⟩
  | .error .version => ⟨0, versionText⟩
  | .error _ => ⟨2, []⟩
  | .ok options =>
    match resolveConfig w.files w.places options with
    | .error _ => ⟨1, []⟩
    | .ok config =>
      let (result, s) := (w.shell config).session options.start input
      ⟨if result.isOk then 0 else 1, printedText none s.printed⟩

end Parley
