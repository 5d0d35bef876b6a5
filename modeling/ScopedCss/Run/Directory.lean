import ScopedCss.Run.Basic
import ScopedCss.Settings.Lookup

set_option autoImplicit false

/-!
# Runs with settings from a directory
-/

namespace ScopedCss.Run

/-- A run with the settings that a directory gives: their failure or the run's result, the log of
both, and the file system after it. Without settings there is no run. -/
def inDirectory (directory : Text) (files : Files.FileSystem) :
    Except Settings.LoadFailure (Except Failure Outcome) × List Log.Record × Files.FileSystem :=
  match Settings.inDirectory files directory with
  | (.error failure, log) => (.error failure, log, files)
  | (.ok settings, log) =>
      let (report, after) := onFiles settings files
      (.ok report.result, log ++ report.log, after)

end ScopedCss.Run
