import ScopedCss.Proofs.Run.Ending

set_option autoImplicit false

/-!
# What a run does to the files

A run that does not write leaves the files as they are. A run that writes leaves all but one as they
are, and that one holds the scoped stylesheet in full. The input is read before the output is
opened, so it makes no difference whether both paths lead to the same file.
-/

namespace ScopedCss.Run

open Files (FileSystem)
open Files.FileSystem (Replaced bytesOf)

/-- How a run ends and what the files are after it, by what its two paths lead to. -/
inductive Effect (settings : Settings) (files : FileSystem) :
    Except Failure Outcome → FileSystem → Prop where
  | noInput (missing : files.readText settings.input = .error .notFound) :
      Effect settings files (.ok (.noInput settings.input)) files
  | unreadable {cause : Files.Failure} (refused : files.readText settings.input = .error cause)
      (notMissing : cause ≠ .notFound) :
      Effect settings files (.error (.unreadable settings.input cause)) files
  | unwritable {css : Text} {cause : Files.Failure}
      (read : files.readText settings.input = .ok css)
      (refused : files.outputLocation settings.output = .error cause) :
      Effect settings files (.error (.unwritable settings.output cause)) files
  | done {css : Text} {location : Files.Location} {after : FileSystem}
      (read : files.readText settings.input = .ok css)
      (leads : files.outputLocation settings.output = .ok location)
      (replaced :
        Replaced files location (bytesOf (Stylesheet.scope settings.wrapper css)) after) :
      Effect settings files (.ok (.done settings.output (Rule.allIn css).length)) after

theorem effect_onFiles (settings : Settings) (files : FileSystem) :
    Effect settings files (onFiles settings files).1.result (onFiles settings files).2 := by
  obtain ⟨ending, ends⟩ := exists_ends settings files
  cases ends with
  | noInput missing =>
      rw [onFiles_of_missing missing]
      exact .noInput missing
  | unreadable refused notMissing =>
      rw [onFiles_of_unreadable refused notMissing]
      exact .unreadable refused notMissing
  | unwritable read refused =>
      rw [onFiles_of_unwritable read refused]
      exact .unwritable read refused
  | done read leads =>
      rw [onFiles_of_done read leads]
      exact .done read leads ((FileSystem.takesFile_of_outputLocation leads).replaced_put _)

/-- A run that ends in any other way than having written its output changes nothing. One that has
written changes the file that the output path leads to and nothing else: that file holds the text
that the input held before, scoped under the wrapper, and the number of rules is that of the same
text. -/
theorem onFiles_frame (settings : Settings) (files : FileSystem) :
    ((∀ output rules, (onFiles settings files).1.result ≠ .ok (.done output rules)) →
      (onFiles settings files).2 = files) ∧
    ∀ output rules, (onFiles settings files).1.result = .ok (.done output rules) →
      output = settings.output ∧
      ∃ css location, files.readText settings.input = .ok css ∧ rules = (Rule.allIn css).length ∧
        files.outputLocation settings.output = .ok location ∧
        Replaced files location (bytesOf (Stylesheet.scope settings.wrapper css))
          (onFiles settings files).2 ∧
        (onFiles settings files).2.outputLocation settings.output = .ok location ∧
        (onFiles settings files).2.read settings.output =
          .ok (bytesOf (Stylesheet.scope settings.wrapper css)) := by
  have effect := effect_onFiles settings files
  generalize (onFiles settings files).1.result = result at effect ⊢
  generalize (onFiles settings files).2 = after at effect ⊢
  cases effect with
  | noInput _ => exact ⟨fun _ => rfl, nofun⟩
  | unreadable _ _ => exact ⟨fun _ => rfl, nofun⟩
  | unwritable _ _ => exact ⟨fun _ => rfl, nofun⟩
  | done read leads replaced =>
      refine ⟨fun notDone => absurd rfl (notDone _ _), ?_⟩
      intro output rules same
      cases same
      exact ⟨rfl, _, _, read, rfl, leads, replaced, replaced.outputLocation_eq_ok_iff.mpr leads,
        replaced.read_eq leads⟩

end ScopedCss.Run
