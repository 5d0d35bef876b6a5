import ScopedCss.Files.Access

set_option autoImplicit false

/-!
# Replacing a file

A file that is put where no directory stands changes no way through the directories: a path leads to
the same place before and after (`Replaced.target_eq_ok_iff`), though what stands there may be
another. So a file that was written can be written there again.
-/

namespace ScopedCss.Files.FileSystem

variable {files after : FileSystem} {location other : Location} {content : ByteArray}

/-- Where a file can be put: a name that is not too long, and no directory that has it. -/
inductive TakesFile (files : FileSystem) : Location → Prop where
  | entry {name : Name} {directory : Location} :
      Text.byteLength name ≤ nameLimit → files.find? (name :: directory) ≠ some .directory →
      TakesFile files (name :: directory)

/-- The two file systems differ in nothing but the file at a location, which holds `content` in the
second. -/
structure Replaced (files : FileSystem) (location : Location) (content : ByteArray)
    (after : FileSystem) : Prop where
  takesFile : files.TakesFile location
  workingDirectory : after.workingDirectory = files.workingDirectory
  here : after.find? location = some (.file content)
  elsewhere : ∀ other ≠ location, after.find? other = files.find? other

theorem TakesFile.find?_ne (takesFile : files.TakesFile location) :
    files.find? location ≠ some .directory := by
  cases takesFile with
  | entry _ notDirectory => exact notDirectory

theorem TakesFile.replaced_put (takesFile : files.TakesFile location) (content : ByteArray) :
    Replaced files location content (files.put location (.file content)) where
  takesFile := takesFile
  workingDirectory := workingDirectory_put files location (.file content)
  here := by simp [find?_put]
  elsewhere := by
    intro other apart
    simp [find?_put, apart]

theorem takesFile_iff_lookup :
    files.TakesFile location ↔ files.lookup location = .error .notFound ∨
      ∃ content, files.lookup location = .ok (.file content) := by
  cases location with
  | nil =>
      simp only [lookup, reduceCtorEq, Except.ok.injEq, exists_false, or_self, iff_false]
      intro takesFile
      cases takesFile
  | cons name directory =>
      constructor
      · intro takesFile
        cases takesFile with
        | entry fits notDirectory =>
            simp only [lookup, if_neg (Nat.not_lt.mpr fits)]
            cases found : files.find? (name :: directory) with
            | none => exact .inl rfl
            | some node =>
                cases node with
                | file content => exact .inr ⟨content, rfl⟩
                | directory => exact absurd found notDirectory
      · intro looked
        simp only [lookup] at looked
        by_cases tooLong : nameLimit < Text.byteLength name
        · simp [tooLong] at looked
        · rw [if_neg tooLong] at looked
          refine .entry (Nat.not_lt.mp tooLong) ?_
          intro isDirectory
          simp [isDirectory] at looked

theorem writable_eq_ok_iff {path : Path} :
    files.writable path = .ok location ↔
      files.target path = .ok (.entry location) ∧ path.endsInSlash = false ∧
        files.TakesFile location := by
  rw [takesFile_iff_lookup, writable]
  cases reached : files.target path with
  | error failure => simp
  | ok target =>
      cases target with
      | reached => simp
      | entry place =>
          simp only [Except.ok.injEq, Target.entry.injEq]
          cases path.endsInSlash with
          | true => simp
          | false =>
              simp only [Bool.false_eq_true, ↓reduceIte, true_and]
              split
              · rename_i found
                simp only [reduceCtorEq, false_iff]
                rintro ⟨rfl, looked⟩
                simp [found] at looked
              · rename_i content found
                simp only [Except.ok.injEq]
                exact ⟨fun same => ⟨same, .inr ⟨content, same ▸ found⟩⟩, fun looked => looked.1⟩
              · rename_i missing
                simp only [Except.ok.injEq]
                exact ⟨fun same => ⟨same, .inl (same ▸ missing)⟩, fun looked => looked.1⟩
              · rename_i failure notMissing found
                simp only [reduceCtorEq, false_iff]
                rintro ⟨rfl, looked⟩
                rcases looked with missing | ⟨content, held⟩
                · rw [found, Except.error.injEq] at missing
                  exact notMissing missing
                · rw [found] at held
                  cases held

theorem outputLocation_eq_ok_iff {path : Text} :
    files.outputLocation path = .ok location ↔
      ∃ steps, Path.ofText path = .ok steps ∧ files.writable steps = .ok location := by
  cases spelled : Path.ofText path with
  | error failure => simp [outputLocation, spelled, bind, Except.bind]
  | ok steps => simp [outputLocation, spelled, bind, Except.bind]

theorem enter_down_eq_ok_iff {directory next : Location} {name : Name} :
    files.enter directory (.down name) = .ok next ↔
      files.lookup (name :: directory) = .ok .directory ∧ name :: directory = next := by
  rw [enter]
  split <;> simp_all

theorem walk_cons_eq_ok_iff {directory last : Location} {step : Step} {later : List Step} :
    files.walk directory (step :: later) = .ok last ↔
      ∃ next, files.enter directory step = .ok next ∧ files.walk next later = .ok last := by
  rw [walk]
  split <;> simp_all

/-- What the last step of a path is about in the directory that the other steps lead to. -/
def targetIn (directory : Location) (path : Path) : Target :=
  match path.steps.getLast? with
  | some (.down name) => .entry (name :: directory)
  | _ => .reached

theorem target_eq_ok_iff {path : Path} {target : Target} :
    files.target path = .ok target ↔
      ∃ directory, files.walk (if path.absolute then [] else files.workingDirectory)
        path.steps.dropLast = .ok directory ∧ targetIn directory path = target := by
  rw [FileSystem.target]
  split
  · rename_i stuck
    simp [stuck]
  · rename_i directory reached
    simp only [reached, Except.ok.injEq, exists_eq_left', targetIn]
    cases path.steps.getLast? with
    | none => simp
    | some step => cases step <;> simp

theorem takesFile_of_outputLocation {path : Text}
    (leads : files.outputLocation path = .ok location) : files.TakesFile location := by
  obtain ⟨steps, _, writable⟩ := outputLocation_eq_ok_iff.mp leads
  exact (writable_eq_ok_iff.mp writable).2.2

namespace Replaced

theorem lookup_eq_directory_iff (replaced : Replaced files location content after) :
    after.lookup other = .ok .directory ↔ files.lookup other = .ok .directory := by
  cases other with
  | nil => exact Iff.rfl
  | cons name directory =>
      by_cases same : name :: directory = location
      · subst same
        have notDirectory := replaced.takesFile.find?_ne
        simp only [lookup, replaced.here]
        split
        · simp
        · cases found : files.find? (name :: directory) with
          | none => simp
          | some node => simpa [found] using notDirectory
      · simp only [lookup, replaced.elsewhere _ same]

theorem enter_eq_ok_iff (replaced : Replaced files location content after) {directory next : Location}
    {step : Step} :
    after.enter directory step = .ok next ↔ files.enter directory step = .ok next := by
  cases step with
  | stay => exact Iff.rfl
  | up => exact Iff.rfl
  | down name => simp only [enter_down_eq_ok_iff, replaced.lookup_eq_directory_iff]

theorem walk_eq_ok_iff (replaced : Replaced files location content after) {directory last : Location}
    {steps : List Step} :
    after.walk directory steps = .ok last ↔ files.walk directory steps = .ok last := by
  induction steps generalizing directory with
  | nil => exact Iff.rfl
  | cons step later ih => simp only [walk_cons_eq_ok_iff, replaced.enter_eq_ok_iff, ih]

theorem target_eq_ok_iff (replaced : Replaced files location content after) {path : Path}
    {target : Target} : after.target path = .ok target ↔ files.target path = .ok target := by
  simp only [FileSystem.target_eq_ok_iff, replaced.workingDirectory, replaced.walk_eq_ok_iff]

theorem takesFile_iff (replaced : Replaced files location content after) :
    after.TakesFile other ↔ files.TakesFile other := by
  by_cases same : other = location
  · subst same
    refine iff_of_true ?_ replaced.takesFile
    cases replaced.takesFile with
    | entry fits _ => exact .entry fits (by simp [replaced.here])
  · have unchanged := replaced.elsewhere other same
    constructor
    · intro takesFile
      cases takesFile with
      | entry fits notDirectory => exact .entry fits (unchanged ▸ notDirectory)
    · intro takesFile
      cases takesFile with
      | entry fits notDirectory => exact .entry fits (unchanged.symm ▸ notDirectory)

/-- Whether and where a path can be written to is the same before and after. -/
theorem outputLocation_eq_ok_iff (replaced : Replaced files location content after) {path : Text} :
    after.outputLocation path = .ok other ↔ files.outputLocation path = .ok other := by
  simp only [FileSystem.outputLocation_eq_ok_iff, writable_eq_ok_iff, replaced.target_eq_ok_iff,
    replaced.takesFile_iff]

end Replaced

end ScopedCss.Files.FileSystem
