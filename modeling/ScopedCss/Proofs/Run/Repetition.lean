import ScopedCss.Proofs.Run.Ending

set_option autoImplicit false

/-!
# Running again

A run that does not write over its own input finds the same input when it is run again, and writes
what is there already.
-/

namespace ScopedCss.Run

open Files (FileSystem)
open Files.FileSystem (bytesOf)

/-- A run of the same settings on what a run left behind ends in the same way, logs the same and
changes nothing, unless the run has written over its own input. -/
theorem onFiles_onFiles (settings : Settings) (files : FileSystem)
    (apart : ¬ (onFiles settings files).2.SameFile settings.input settings.output) :
    onFiles settings (onFiles settings files).2 = onFiles settings files := by
  obtain ⟨ending, ends⟩ := exists_ends settings files
  cases ends with
  | noInput missing => rw [onFiles_of_missing missing, onFiles_of_missing missing]
  | unreadable refused notMissing =>
      rw [onFiles_of_unreadable refused notMissing, onFiles_of_unreadable refused notMissing]
  | unwritable read refused =>
      rw [onFiles_of_unwritable read refused, onFiles_of_unwritable read refused]
  | @done css location read leads =>
      have written := onFiles_of_done read leads
      rw [written] at apart ⊢
      have replaced := (FileSystem.takesFile_of_outputLocation leads).replaced_put
        (bytesOf (Stylesheet.scope settings.wrapper css))
      have opens := FileSystem.outputLocation_eq_ok_iff_opens.mp leads
      -- What was written is not the input, and opens under the same path as before.
      have readAgain := replaced.readText_eq opens read apart
      have leadsAgain := replaced.outputLocation_eq_ok_iff.mpr leads
      rw [onFiles_of_done readAgain leadsAgain, FileSystem.put_put]

theorem onFiles_onFiles_dots :
    let files : FileSystem :=
      ⟨[([['w']], .directory), ([['d'], ['w']], .directory),
        (["in".toList, ['d'], ['w']], .file (bytesOf "@media x\x7ba\x7bb\x7d".toList))], [['w']]⟩
    let settings : Settings := ⟨"d/.././/d/in".toList, "d//../out".toList, ".p".toList⟩
    ¬ (onFiles settings files).2.SameFile settings.input settings.output ∧
      (onFiles settings files).1.result = .ok (.done settings.output 1) ∧
      onFiles settings (onFiles settings files).2 = onFiles settings files := by
  intro files settings
  have apart : ¬ (onFiles settings files).2.SameFile settings.input settings.output := by
    intro same
    exact absurd same.read_eq (by decide +kernel)
  exact ⟨apart, by decide +kernel, onFiles_onFiles settings files apart⟩

end ScopedCss.Run
