import ScopedCss.CommandLine
import ScopedCss.Proofs.Files.Agreement
import ScopedCss.Proofs.Run.Effect

set_option autoImplicit false

/-!
# What the command depends on

The command looks at two paths and at nothing else. No settings file has a say, and the filter
decides nothing but which lines of the log are shown.
-/

namespace ScopedCss

open Files (FileSystem Path Name)
open Files.FileSystem (SameBut)

namespace Run

variable {settings : Settings} {left right files : FileSystem} {name : Name}

/-- A run makes the same report and the same change whatever stands under a name that none of its
paths steps to. -/
theorem onFiles_of_sameBut (same : SameBut name left right)
    (sparesInput : Path.Spares name settings.input)
    (sparesOutput : Path.Spares name settings.output) :
    (onFiles settings left).1 = (onFiles settings right).1 ∧
      SameBut name (onFiles settings left).2 (onFiles settings right).2 := by
  have leads := same.outputLocation_eq sparesOutput
  unfold onFiles
  rw [same.readText_eq sparesInput]
  cases plan settings (right.readText settings.input) with
  | stop report => exact ⟨rfl, same⟩
  | write rules =>
      cases reached : right.outputLocation settings.output with
      | error cause =>
          simp only [FileSystem.write, leads, reached, bind, Except.bind]
          exact ⟨trivial, same⟩
      | ok location =>
          simp only [FileSystem.write, leads, reached, bind, Except.bind, pure, Except.pure]
          exact ⟨trivial, same.put location _⟩

theorem find?_onFiles (sparesOutput : Path.Spares name settings.output)
    (directory : Files.Location) :
    (onFiles settings files).2.find? (name :: directory) = files.find? (name :: directory) := by
  have effect := effect_onFiles settings files
  generalize (onFiles settings files).1.result = result at effect
  generalize (onFiles settings files).2 = after at effect ⊢
  cases effect with
  | noInput _ => rfl
  | unreadable _ _ => rfl
  | unwritable _ _ => rfl
  | done _ leads replaced =>
      refine replaced.elsewhere _ ?_
      intro same
      exact FileSystem.head?_ne_of_outputLocation leads sparesOutput (by simp [← same])

/-- Why a run fails: its input cannot be read although it is there, or its output cannot be
opened. -/
def Fails (settings : Settings) (files : FileSystem) : Prop :=
  (∃ cause, files.readText settings.input = .error cause ∧ cause ≠ .notFound) ∨
    (∃ css, files.readText settings.input = .ok css) ∧
      ∃ cause, files.outputLocation settings.output = .error cause

theorem exists_failure_iff (settings : Settings) (files : FileSystem) :
    (∃ failure, (onFiles settings files).1.result = .error failure) ↔ Fails settings files := by
  have effect := effect_onFiles settings files
  generalize (onFiles settings files).1.result = result at effect ⊢
  generalize (onFiles settings files).2 = after at effect
  cases effect with
  | noInput missing => simp [Fails, missing]
  | unreadable refused notMissing => simp [Fails, refused, notMissing]
  | unwritable read refused => simp [Fails, read, refused]
  | done read leads _ => simp [Fails, read, leads]

end Run

namespace CommandLine

/-! ## Transcripts -/

/-- The lines of the log that a filter shows: those of the records that are as grave as the
threshold for their source. -/
def logLines (filter : Log.Filter) (report : Run.Report) : List Text :=
  let records := (titleRecord :: report.log).filter fun record =>
    record.severity.rank ≤ (filter.threshold record.source).rank
  records.map Log.Record.line

/-- What is printed behind the log. -/
def lastLine : Except Run.Failure Run.Outcome → Text
  | .ok _ => []
  | .error failure => failureLine failure

theorem errors_transcript (filter : Log.Filter) (report : Run.Report) :
    (transcript filter report).errors =
      (logLines filter report).flatten ++ lastLine report.result := by
  unfold transcript
  cases report.result with
  | ok outcome => exact (List.append_nil _).symm
  | error failure => rfl

theorem output_transcript (terse verbose : Log.Filter) (report : Run.Report) :
    (transcript terse report).output = (transcript verbose report).output := by
  unfold transcript
  cases report.result with
  | ok outcome => rfl
  | error failure => rfl

theorem exitCode_transcript (terse verbose : Log.Filter) (report : Run.Report) :
    (transcript terse report).exitCode = (transcript verbose report).exitCode := by
  unfold transcript
  cases report.result with
  | ok outcome => rfl
  | error failure => rfl

theorem exitCode_transcript_eq_one_iff (filter : Log.Filter) (report : Run.Report) :
    (transcript filter report).exitCode = 1 ↔ ∃ failure, report.result = .error failure := by
  unfold transcript
  cases report.result with
  | ok outcome => simp
  | error failure => simp

theorem output_transcript_eq_nil {filter : Log.Filter} {report : Run.Report}
    (failed : (transcript filter report).exitCode = 1) :
    (transcript filter report).output = [] := by
  obtain ⟨failure, refused⟩ := (exitCode_transcript_eq_one_iff filter report).mp failed
  simp [transcript, refused]

/-! ## Default settings -/

theorem spares_fileName_input : Path.Spares Settings.fileName Settings.defaults.input :=
  Path.spares_of_not_mem (by decide +kernel)

theorem spares_fileName_output : Path.Spares Settings.fileName Settings.defaults.output :=
  Path.spares_of_not_mem (by decide +kernel)

/-! ## Independence -/

theorem onFiles_of_sameBut_fileName {files other : FileSystem}
    (same : SameBut Settings.fileName files other) (filter : Log.Filter) :
    (onFiles filter files).1 = (onFiles filter other).1 ∧
      SameBut Settings.fileName (onFiles filter files).2 (onFiles filter other).2 := by
  obtain ⟨report, after⟩ :=
    Run.onFiles_of_sameBut same spares_fileName_input spares_fileName_output
  exact ⟨congrArg (transcript filter) report, after⟩

/-- Settings files have no say in what the command prints, in its exit code or in what it changes,
and are not changed themselves. Filters differ in the lines of the log alone, of which one with
lower thresholds shows no others. The command fails exactly if its run does, and prints no outcome
then. -/
theorem onFiles_independent (files : FileSystem) :
    (∀ other, SameBut Settings.fileName files other → ∀ filter,
      (onFiles filter files).1 = (onFiles filter other).1 ∧
      SameBut Settings.fileName (onFiles filter files).2 (onFiles filter other).2 ∧
      ∀ directory,
        (onFiles filter files).2.find? (Settings.fileName :: directory) =
          files.find? (Settings.fileName :: directory) ∧
        (onFiles filter other).2.find? (Settings.fileName :: directory) =
          other.find? (Settings.fileName :: directory)) ∧
    (∀ terse verbose : Log.Filter,
      let report := (Run.onFiles Settings.defaults files).1
      (onFiles terse files).1.output = (onFiles verbose files).1.output ∧
      (onFiles terse files).1.exitCode = (onFiles verbose files).1.exitCode ∧
      (onFiles terse files).2 = (onFiles verbose files).2 ∧
      (onFiles terse files).1.errors =
        (logLines terse report).flatten ++ lastLine report.result ∧
      (onFiles verbose files).1.errors =
        (logLines verbose report).flatten ++ lastLine report.result ∧
      ((∀ source, (terse.threshold source).rank ≤ (verbose.threshold source).rank) →
        (logLines terse report).Sublist (logLines verbose report))) ∧
    ∀ filter,
      ((onFiles filter files).1.exitCode = 1 ↔ Run.Fails Settings.defaults files) ∧
      ((onFiles filter files).1.exitCode = 1 → (onFiles filter files).1.output = []) := by
  refine ⟨?_, ?_, ?_⟩
  · intro other same filter
    obtain ⟨printed, after⟩ := onFiles_of_sameBut_fileName same filter
    exact ⟨printed, after, fun directory =>
      ⟨Run.find?_onFiles spares_fileName_output directory,
        Run.find?_onFiles spares_fileName_output directory⟩⟩
  · intro terse verbose report
    exact ⟨output_transcript terse verbose report, exitCode_transcript terse verbose report, rfl,
      errors_transcript terse report, errors_transcript verbose report,
      fun ordered => Log.shown_sublist ordered (titleRecord :: report.log)⟩
  · intro filter
    refine ⟨?_, output_transcript_eq_nil⟩
    rw [← Run.exists_failure_iff]
    exact exitCode_transcript_eq_one_iff filter _

theorem onFiles_independent_unwritable :
    let files : FileSystem :=
      ⟨[([['w']], .directory), (["template_base".toList, ['w']], .directory),
        (["style.css".toList, "template_base".toList, ['w']],
          .file (FileSystem.bytesOf "a\x7bb\x7d".toList)),
        (["style-wp.css".toList, "template_base".toList, ['w']], .directory)], [['w']]⟩
    let other := files.put [Settings.fileName, ['w']] (.file (FileSystem.bytesOf ['?']))
    let filter := Log.Filter.uniform .off
    (onFiles filter files).1 = (onFiles filter other).1 ∧
      (onFiles filter files).1.exitCode = 1 ∧ (onFiles filter files).1.output = [] := by
  intro files other filter
  obtain ⟨settingsFiles, _, failing⟩ := onFiles_independent files
  have same := FileSystem.sameBut_put files Settings.fileName [['w']]
    (.file (FileSystem.bytesOf ['?']))
  have failed : (onFiles filter files).1.exitCode = 1 := by decide +kernel
  exact ⟨(settingsFiles other same filter).1, failed, (failing filter).2 failed⟩

end CommandLine

end ScopedCss
