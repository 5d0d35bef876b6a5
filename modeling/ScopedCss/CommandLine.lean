import ScopedCss.Release
import ScopedCss.Run.Basic

set_option autoImplicit false

/-!
# The command

The command makes one run with the default settings and tells how it ended. It takes no arguments
and looks for no settings file. A filter decides how much of the log is shown.
-/

namespace ScopedCss.CommandLine

/-- What the command prints, and the code it exits with. -/
structure Transcript where
  output : Text
  errors : Text
  exitCode : Nat
  deriving DecidableEq

def titleRecord : Log.Record := ⟨.debug, .program, Release.title⟩

def outcomeLine : Run.Outcome → Text
  | .done output _ =>
      "✅ Sucesso! CSS blindado e salvo em '".toList ++ output ++ "'\n".toList
  | .noInput input =>
      "❌ Erro: O arquivo de entrada '".toList ++ input ++ "' não foi encontrado.\n".toList

def failureLine (failure : Run.Failure) : Text :=
  "Error: ".toList ++ failure.message ++ ['\n']

/-- The transcript of a run. The log stands before the line for a failure. -/
def transcript (filter : Log.Filter) (report : Run.Report) : Transcript :=
  let log := (Log.shown filter (titleRecord :: report.log)).flatten
  match report.result with
  | .ok outcome => ⟨outcomeLine outcome, log, 0⟩
  | .error failure => ⟨[], log ++ failureLine failure, 1⟩

/-- The command on a file system, and the file system after it. -/
def onFiles (filter : Log.Filter) (files : Files.FileSystem) : Transcript × Files.FileSystem :=
  let (report, after) := Run.onFiles Settings.defaults files
  (transcript filter report, after)

end ScopedCss.CommandLine
