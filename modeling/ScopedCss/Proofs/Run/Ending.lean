import ScopedCss.Proofs.Files.Writing
import ScopedCss.Run.Basic

set_option autoImplicit false

/-!
# How a run ends

A run ends in one of four ways, which its two paths decide, and its log tells them apart
(`report_onFiles`).
-/

namespace ScopedCss.Run

open Files (FileSystem Location)
open Files.FileSystem (bytesOf)

/-- The ways in which a run ends, with the number of rules where it has looked for them. -/
inductive Ending where
  | noInput
  | unreadable (cause : Files.Failure)
  | unwritable (rules : Nat) (cause : Files.Failure)
  | done (rules : Nat)

def Ending.report (settings : Settings) : Ending → Report
  | .noInput => ⟨.ok (.noInput settings.input), [noInputRecord settings]⟩
  | .unreadable cause => ⟨.error (.unreadable settings.input cause), []⟩
  | .unwritable rules cause =>
      ⟨.error (.unwritable settings.output cause), [foundRecord settings rules]⟩
  | .done rules =>
      ⟨.ok (.done settings.output rules), [foundRecord settings rules, wroteRecord settings rules]⟩

/-- What the paths of a run lead to when it ends in this way. -/
inductive Ends (settings : Settings) (files : FileSystem) : Ending → Prop where
  | noInput (missing : files.readText settings.input = .error .notFound) :
      Ends settings files .noInput
  | unreadable {cause : Files.Failure} (refused : files.readText settings.input = .error cause)
      (notMissing : cause ≠ .notFound) : Ends settings files (.unreadable cause)
  | unwritable {css : Text} {cause : Files.Failure}
      (read : files.readText settings.input = .ok css)
      (refused : files.outputLocation settings.output = .error cause) :
      Ends settings files (.unwritable (Rule.allIn css).length cause)
  | done {css : Text} {location : Location} (read : files.readText settings.input = .ok css)
      (leads : files.outputLocation settings.output = .ok location) :
      Ends settings files (.done (Rule.allIn css).length)

variable {settings : Settings} {files : FileSystem} {ending other : Ending} {css : Text}
  {location : Location} {cause : Files.Failure}

theorem exists_ends (settings : Settings) (files : FileSystem) :
    ∃ ending, Ends settings files ending := by
  cases read : files.readText settings.input with
  | error cause =>
      by_cases missing : cause = .notFound
      · exact ⟨_, .noInput (missing ▸ read)⟩
      · exact ⟨_, .unreadable read missing⟩
  | ok css =>
      cases leads : files.outputLocation settings.output with
      | error cause => exact ⟨_, .unwritable read leads⟩
      | ok location => exact ⟨_, .done read leads⟩

/-! ## What a run makes of its paths -/

theorem onFiles_of_missing (missing : files.readText settings.input = .error .notFound) :
    onFiles settings files = (Ending.noInput.report settings, files) := by
  simp only [onFiles, missing, plan, Ending.report]

theorem onFiles_of_unreadable (refused : files.readText settings.input = .error cause)
    (notMissing : cause ≠ .notFound) :
    onFiles settings files = ((Ending.unreadable cause).report settings, files) := by
  have stopped : plan settings (.error cause) =
      .stop ((Ending.unreadable cause).report settings) := by
    cases cause <;> first | rfl | exact absurd rfl notMissing
  simp only [onFiles, refused, stopped]

theorem onFiles_of_unwritable (read : files.readText settings.input = .ok css)
    (refused : files.outputLocation settings.output = .error cause) :
    onFiles settings files =
      ((Ending.unwritable (Rule.allIn css).length cause).report settings, files) := by
  simp only [onFiles, read, plan, FileSystem.write, refused, bind, Except.bind, conclude,
    Ending.report]

theorem onFiles_of_done (read : files.readText settings.input = .ok css)
    (leads : files.outputLocation settings.output = .ok location) :
    onFiles settings files =
      ((Ending.done (Rule.allIn css).length).report settings,
        files.put location (.file (bytesOf (Stylesheet.scope settings.wrapper css)))) := by
  simp only [onFiles, read, plan, FileSystem.write, leads, bind, Except.bind, pure, Except.pure,
    conclude, Ending.report, Stylesheet.scope]

theorem Ends.report_eq (ends : Ends settings files ending) :
    (onFiles settings files).1 = ending.report settings := by
  cases ends with
  | noInput missing => rw [onFiles_of_missing missing]
  | unreadable refused notMissing => rw [onFiles_of_unreadable refused notMissing]
  | unwritable read refused => rw [onFiles_of_unwritable read refused]
  | done read leads => rw [onFiles_of_done read leads]

/-! ## Reports -/

theorem toDigits_inj {first second : Nat}
    (same : Nat.toDigits 10 first = Nat.toDigits 10 second) : first = second := by
  have value := congrArg (Nat.ofDigitChars 10 · 0) same
  simpa only [Nat.ofDigitChars_ten_toDigits] using value

/-- The log tells how many rules were found. -/
theorem foundRecord_inj {first second : Nat}
    (same : foundRecord settings first = foundRecord settings second) : first = second := by
  simp only [foundRecord, Log.Record.mk.injEq, true_and, List.append_cancel_right_eq,
    List.append_cancel_left_eq] at same
  exact toDigits_inj same

theorem Ending.report_inj (same : ending.report settings = other.report settings) :
    ending = other := by
  cases ending with
  | noInput => cases other <;> simp_all [report]
  | unreadable cause => cases other <;> simp_all [report]
  | done rules => cases other <;> simp_all [report]
  | unwritable rules cause =>
      cases other with
      | unwritable otherRules otherCause =>
          -- The failure does not tell how many rules were found, but the log does.
          simp only [report, Report.mk.injEq, Except.error.injEq, Failure.unwritable.injEq,
            true_and, List.cons.injEq, and_true] at same
          rw [same.1, foundRecord_inj same.2]
      | noInput => simp [report] at same
      | unreadable otherCause => simp [report] at same
      | done otherRules => simp [report] at same

theorem report_eq_iff_ends :
    (onFiles settings files).1 = ending.report settings ↔ Ends settings files ending := by
  constructor
  · intro same
    obtain ⟨other, ends⟩ := exists_ends settings files
    rw [ends.report_eq] at same
    exact Ending.report_inj same ▸ ends
  · exact Ends.report_eq

theorem Ends.unique (ends : Ends settings files ending) (otherEnds : Ends settings files other) :
    ending = other :=
  Ending.report_inj (ends.report_eq.symm.trans otherEnds.report_eq)

/-! ## Endings by what the paths lead to -/

theorem ends_noInput_iff :
    Ends settings files .noInput ↔ files.Unreadable settings.input .notFound := by
  rw [← FileSystem.readText_eq_error_iff]
  constructor
  · intro ends
    cases ends with
    | noInput missing => exact missing
  · exact .noInput

theorem ends_unreadable_iff :
    Ends settings files (.unreadable cause) ↔
      files.Unreadable settings.input cause ∧ cause ≠ .notFound := by
  rw [← FileSystem.readText_eq_error_iff]
  constructor
  · intro ends
    cases ends with
    | unreadable refused notMissing => exact ⟨refused, notMissing⟩
  · rintro ⟨refused, notMissing⟩
    exact .unreadable refused notMissing

theorem ends_unwritable_iff {rules : Nat} :
    Ends settings files (.unwritable rules cause) ↔
      ∃ place css, files.HasFile settings.input place (bytesOf css) ∧
        files.Unwritable settings.output cause ∧ rules = (Rule.allIn css).length := by
  constructor
  · intro ends
    cases ends with
    | unwritable read refused =>
        obtain ⟨place, hasFile⟩ := FileSystem.readText_eq_ok_iff.mp read
        exact ⟨place, _, hasFile, FileSystem.outputLocation_eq_error_iff.mp refused, rfl⟩
  · rintro ⟨place, css, hasFile, unwritable, rfl⟩
    exact .unwritable (FileSystem.readText_eq_ok_iff.mpr ⟨place, hasFile⟩)
      unwritable.outputLocation_eq

theorem ends_done_iff {rules : Nat} :
    Ends settings files (.done rules) ↔
      ∃ place css location, files.HasFile settings.input place (bytesOf css) ∧
        files.Opens settings.output location ∧ rules = (Rule.allIn css).length := by
  constructor
  · intro ends
    cases ends with
    | @done _ location read leads =>
        obtain ⟨place, hasFile⟩ := FileSystem.readText_eq_ok_iff.mp read
        exact ⟨place, _, location, hasFile, FileSystem.outputLocation_eq_ok_iff_opens.mp leads, rfl⟩
  · rintro ⟨place, css, location, hasFile, opens, rfl⟩
    exact .done (FileSystem.readText_eq_ok_iff.mpr ⟨place, hasFile⟩)
      (FileSystem.outputLocation_eq_ok_iff_opens.mpr opens)

/-! ## What is in the way -/

theorem mem_refusals_or_notText {input output : Text}
    (refused : files.Unreadable input cause ∨ files.Unwritable output cause) :
    cause ∈ FileSystem.refusals ++ [.notText] := by
  rcases refused with unreadable | unwritable
  · cases unreadable with
    | refused refuses => exact List.mem_append_left _ refuses.mem_refusals
    | notText _ _ => exact List.mem_concat_self
  · exact List.mem_append_left _ unwritable.mem_refusals

/-- The output and the wrapper have no say where the input cannot be read. -/
theorem onFiles_eq_of_not_read (refused : files.readText settings.input = .error cause)
    (output wrapper : Text) :
    onFiles ⟨settings.input, output, wrapper⟩ files = onFiles settings files := by
  by_cases missing : cause = .notFound
  · subst missing
    have other : onFiles ⟨settings.input, output, wrapper⟩ files = _ := onFiles_of_missing refused
    exact other.trans (onFiles_of_missing refused).symm
  · have other : onFiles ⟨settings.input, output, wrapper⟩ files = _ :=
      onFiles_of_unreadable refused missing
    exact other.trans (onFiles_of_unreadable refused missing).symm

/-! ## Reports by endings -/

/-- A run ends in exactly one way, and its report is that of the way it ends in. It has no input if
the input is not there, fails to read it if there is anything else in the way, and fails to write if
the input is read but the output cannot be opened. The log tells of an input that is missing, and of
one that was read, with the number of its rules, and of an output that was written. What a run makes
of an input that it cannot read does not depend on its output and its wrapper. -/
theorem report_onFiles (settings : Settings) (files : FileSystem) :
    let report := (onFiles settings files).1
    let missing : Log.Record :=
      ⟨.error, .run, "input stylesheet '".toList ++ settings.input ++ "' was not found".toList⟩
    let found (rules : Nat) : Log.Record :=
      ⟨.debug, .run,
        "found ".toList ++ Nat.toDigits 10 rules ++ " rule blocks in '".toList ++ settings.input ++
          ['\'']⟩
    let wrote (rules : Nat) : Log.Record :=
      ⟨.info, .run,
        "wrote ".toList ++ Nat.toDigits 10 rules ++ " rule blocks scoped under '".toList ++
          settings.wrapper ++ "' to '".toList ++ settings.output ++ ['\'']⟩
    (∃! ending, Ends settings files ending) ∧
    (∀ ending, report = ending.report settings ↔ Ends settings files ending) ∧
    (report = ⟨.ok (.noInput settings.input), [missing]⟩ ↔
      files.Unreadable settings.input .notFound) ∧
    (∀ cause, report = ⟨.error (.unreadable settings.input cause), []⟩ ↔
      files.Unreadable settings.input cause ∧ cause ≠ .notFound) ∧
    (∀ rules cause, report = ⟨.error (.unwritable settings.output cause), [found rules]⟩ ↔
      ∃ place css, files.HasFile settings.input place (bytesOf css) ∧
        files.Unwritable settings.output cause ∧ rules = (Rule.allIn css).length) ∧
    (∀ rules, report = ⟨.ok (.done settings.output rules), [found rules, wrote rules]⟩ ↔
      ∃ place css location, files.HasFile settings.input place (bytesOf css) ∧
        files.Opens settings.output location ∧ rules = (Rule.allIn css).length) ∧
    (∀ cause,
      (Failure.unreadable settings.input cause).message =
        "failed to read stylesheet '".toList ++ settings.input ++ "': ".toList ++ cause.message ∧
      (Failure.unwritable settings.output cause).message =
        "failed to write stylesheet '".toList ++ settings.output ++ "': ".toList ++ cause.message ∧
      (files.Unreadable settings.input cause ∨ files.Unwritable settings.output cause →
        (cause, cause.message) ∈
          [(.notFound, "No such file or directory (os error 2)".toList),
            (.notADirectory, "Not a directory (os error 20)".toList),
            (.isADirectory, "Is a directory (os error 21)".toList),
            (.nameTooLong, "File name too long (os error 36)".toList),
            (.nulInPath, "file name contained an unexpected NUL byte".toList),
            (.notText, "stream did not contain valid UTF-8".toList)])) ∧
    (∀ css, files.readText settings.input = .ok css ↔
      ∃ place, files.HasFile settings.input place (bytesOf css)) ∧
    (∀ location,
      files.outputLocation settings.output = .ok location ↔ files.Opens settings.output location) ∧
    (∀ cause,
      (files.readText settings.input = .error cause ↔ files.Unreadable settings.input cause) ∧
      (files.outputLocation settings.output = .error cause ↔
        files.Unwritable settings.output cause)) ∧
    ∀ cause, files.readText settings.input = .error cause →
      ∀ output wrapper,
        onFiles ⟨settings.input, output, wrapper⟩ files = onFiles settings files := by
  intro report missing found wrote
  have ended (ending : Ending) : report = ending.report settings ↔ Ends settings files ending :=
    report_eq_iff_ends
  refine ⟨?_, ended, (ended .noInput).trans ends_noInput_iff,
    fun cause => (ended (.unreadable cause)).trans ends_unreadable_iff,
    fun rules cause => (ended (.unwritable rules cause)).trans ends_unwritable_iff,
    fun rules => (ended (.done rules)).trans ends_done_iff, ?_,
    fun css => FileSystem.readText_eq_ok_iff,
    fun location => FileSystem.outputLocation_eq_ok_iff_opens,
    fun cause => ⟨FileSystem.readText_eq_error_iff, FileSystem.outputLocation_eq_error_iff⟩,
    fun cause => onFiles_eq_of_not_read⟩
  · obtain ⟨ending, ends⟩ := exists_ends settings files
    exact ⟨ending, ends, fun other otherEnds => otherEnds.unique ends⟩
  · intro cause
    refine ⟨rfl, rfl, ?_⟩
    intro refused
    exact List.mem_map_of_mem (f := fun cause => (cause, cause.message))
      (mem_refusals_or_notText refused)

end ScopedCss.Run
