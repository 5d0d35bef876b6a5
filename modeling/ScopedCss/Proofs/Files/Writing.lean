import ScopedCss.Proofs.Files.Replacement
import ScopedCss.Proofs.Files.Resolution

set_option autoImplicit false

/-!
# Where a path can be written

A path is written if it leads to a place for a file, whether or not there is one already, and
otherwise it is refused for what it meets first (`outputLocation_eq_ok_iff_opens`,
`outputLocation_eq_error_iff`). A file that was written is read under every path that leads to it,
and the other files are read as before.
-/

namespace ScopedCss.Files.FileSystem

variable {files : FileSystem} {directory location : Location} {name : Name} {later : List Step}
  {path : Path} {text : Text} {content : ByteArray} {cause : Failure}

/-! ## Places for files -/

/-- A path leads to a place for a file: a name in a directory that is not the name of a directory
itself. -/
inductive Opens (files : FileSystem) (text : Text) : Location → Prop where
  | place {path : Path} {directory : Location} {name : Name} (spelled : Path.ofText text = .ok path)
      (meets : files.Meets path directory name []) (noSlash : path.endsInSlash = false)
      (takesFile : files.TakesFile (name :: directory)) : Opens files text (name :: directory)

/-- A path leads to no place for a file, and this is why. -/
inductive Unwritable (files : FileSystem) (text : Text) : Failure → Prop where
  | nul (present : '\x00' ∈ text) : Unwritable files text .nulInPath
  | empty (nothing : text = []) : Unwritable files text .notFound
  | longPath (absent : '\x00' ∉ text) (long : Path.lengthLimit ≤ Text.byteLength text) :
      Unwritable files text .nameTooLong
  /-- An entry on the way is not there. -/
  | missing {path : Path} {directory : Location} {name : Name} {later : List Step}
      (spelled : Path.ofText text = .ok path) (meets : files.Meets path directory name later)
      (goesOn : later ≠ []) (fits : Text.byteLength name ≤ nameLimit)
      (absent : files.find? (name :: directory) = none) : Unwritable files text .notFound
  | longName {path : Path} {directory : Location} {name : Name} {later : List Step}
      (spelled : Path.ofText text = .ok path) (meets : files.Meets path directory name later)
      (noSlash : later = [] → path.endsInSlash = false) (long : nameLimit < Text.byteLength name) :
      Unwritable files text .nameTooLong
  /-- A file is used as a directory. -/
  | belowFile {path : Path} {directory : Location} {name : Name} {later : List Step}
      {content : ByteArray} (spelled : Path.ofText text = .ok path)
      (meets : files.Meets path directory name later) (goesOn : later ≠ [])
      (fits : Text.byteLength name ≤ nameLimit)
      (held : files.find? (name :: directory) = some (.file content)) :
      Unwritable files text .notADirectory
  /-- The path asks for a directory, whatever has its last name. -/
  | slash {path : Path} {directory : Location} {name : Name}
      (spelled : Path.ofText text = .ok path) (meets : files.Meets path directory name [])
      (slash : path.endsInSlash = true) : Unwritable files text .isADirectory
  | directory {path : Path} {last : Location} (spelled : Path.ofText text = .ok path)
      (leads : files.Leads (files.start path) path.steps last) : Unwritable files text .isADirectory

theorem Unwritable.mem_refusals (unwritable : files.Unwritable text cause) : cause ∈ refusals := by
  cases unwritable <;> simp [refusals]

theorem outputLocation_eq_writable (spelled : Path.ofText text = .ok path) :
    files.outputLocation text = files.writable path := by
  rw [outputLocation, spelled]
  rfl

theorem Meets.writable_eq_of_stops (meets : files.Meets path directory name later)
    (stops : files.Stops directory name cause) (goesOn : later ≠ []) :
    files.writable path = .error cause := by
  simp only [writable, meets.target_eq_of_stops stops goesOn]

theorem Meets.writable_eq_of_slash (meets : files.Meets path directory name [])
    (slash : path.endsInSlash = true) : files.writable path = .error .isADirectory := by
  simp only [writable, meets.target_eq, slash, ↓reduceIte]

theorem Meets.writable_eq_of_long (meets : files.Meets path directory name [])
    (noSlash : path.endsInSlash = false) (long : nameLimit < Text.byteLength name) :
    files.writable path = .error .nameTooLong := by
  simp [writable, meets.target_eq, noSlash, lookup, long]

/-- What leads to a directory is no place for a file. -/
theorem writable_eq_of_nodeAt_eq_directory (isDirectory : files.nodeAt path = .ok .directory) :
    files.writable path = .error .isADirectory := by
  unfold nodeAt at isDirectory
  unfold writable
  cases reached : files.target path with
  | error failure => simp [reached] at isDirectory
  | ok target =>
      cases target with
      | reached => rfl
      | entry place =>
          simp only [reached] at isDirectory ⊢
          cases looked : files.lookup place with
          | error failure => simp [looked] at isDirectory
          | ok node =>
              cases node with
              | file content =>
                  simp only [looked] at isDirectory
                  split at isDirectory <;> cases isDirectory
              | directory => simp

theorem Unwritable.outputLocation_eq (unwritable : files.Unwritable text cause) :
    files.outputLocation text = .error cause := by
  cases unwritable with
  | nul present => simp [outputLocation, Path.ofText_of_nul present, bind, Except.bind]
  | empty nothing => simp [outputLocation, nothing, Path.ofText_nil, bind, Except.bind]
  | longPath absent long =>
      simp [outputLocation, Path.ofText_of_long absent long, bind, Except.bind]
  | missing spelled meets goesOn fits absent =>
      rw [outputLocation_eq_writable spelled]
      exact meets.writable_eq_of_stops (.missing fits absent) goesOn
  | @longName path directory name later spelled meets noSlash long =>
      rw [outputLocation_eq_writable spelled]
      by_cases isLast : later = []
      · subst isLast
        exact meets.writable_eq_of_long (noSlash rfl) long
      · exact meets.writable_eq_of_stops (.longName long) isLast
  | belowFile spelled meets goesOn fits held =>
      rw [outputLocation_eq_writable spelled]
      exact meets.writable_eq_of_stops (.file fits held) goesOn
  | slash spelled meets slash =>
      rw [outputLocation_eq_writable spelled]
      exact meets.writable_eq_of_slash slash
  | directory spelled leads =>
      rw [outputLocation_eq_writable spelled]
      exact writable_eq_of_nodeAt_eq_directory leads.nodeAt_eq

theorem target_eq_entry_iff :
    files.target path = .ok (.entry location) ↔
      ∃ directory name, files.Meets path directory name [] ∧ location = name :: directory := by
  constructor
  · intro reached
    obtain ⟨directory, walked, last⟩ := target_eq_ok_iff.mp reached
    unfold targetIn at last
    split at last
    · rename_i name lastStep
      cases last
      have steps := List.dropLast_append_getLast? _ lastStep
      exact ⟨directory, name, .behind steps.symm (walk_eq_ok_iff.mp walked), rfl⟩
    · cases last
  · rintro ⟨directory, name, meets, rfl⟩
    exact meets.target_eq

theorem outputLocation_eq_ok_iff_opens :
    files.outputLocation text = .ok location ↔ files.Opens text location := by
  constructor
  · intro leads
    obtain ⟨path, spelled, writable⟩ := outputLocation_eq_ok_iff.mp leads
    obtain ⟨target, noSlash, takesFile⟩ := writable_eq_ok_iff.mp writable
    obtain ⟨directory, name, meets, rfl⟩ := target_eq_entry_iff.mp target
    exact .place spelled meets noSlash takesFile
  · intro opens
    cases opens with
    | place spelled meets noSlash takesFile =>
        exact outputLocation_eq_ok_iff.mpr
          ⟨_, spelled, writable_eq_ok_iff.mpr ⟨meets.target_eq, noSlash, takesFile⟩⟩

theorem Meets.unwritable_of_stops (meets : files.Meets path directory name later)
    (spelled : Path.ofText text = .ok path) (stops : files.Stops directory name cause)
    (goesOn : later ≠ []) : files.Unwritable text cause := by
  cases stops with
  | missing fits absent => exact .missing spelled meets goesOn fits absent
  | longName long => exact .longName spelled meets (fun isLast => absurd isLast goesOn) long
  | file fits held => exact .belowFile spelled meets goesOn fits held

/-- Nothing is in the way of a file where nothing or a file has the last name. -/
theorem Meets.opens_or_unwritable (meets : files.Meets path directory name [])
    (spelled : Path.ofText text = .ok path) (stops : files.Stops directory name cause) :
    (∃ location, files.Opens text location) ∨ ∃ cause, files.Unwritable text cause := by
  cases slash : path.endsInSlash with
  | true => exact .inr ⟨_, .slash spelled meets slash⟩
  | false =>
      cases stops with
      | missing fits absent =>
          exact .inl ⟨_, .place spelled meets slash (.entry fits (by simp [absent]))⟩
      | longName long => exact .inr ⟨_, .longName spelled meets (fun _ => slash) long⟩
      | file fits held => exact .inl ⟨_, .place spelled meets slash (.entry fits (by simp [held]))⟩

/-- Every text leads to a place for a file or to none. -/
theorem opens_or_unwritable (files : FileSystem) (text : Text) :
    (∃ location, files.Opens text location) ∨ ∃ cause, files.Unwritable text cause := by
  cases spelled : Path.ofText text with
  | error cause =>
      rcases Path.ofText_eq_error_iff.mp spelled with
        ⟨present, _⟩ | ⟨_, nothing, _⟩ | ⟨absent, _, long, _⟩
      · exact .inr ⟨_, .nul present⟩
      · exact .inr ⟨_, .empty nothing⟩
      · exact .inr ⟨_, .longPath absent long⟩
  | ok path =>
      rcases leads_or_stops files (files.start path) path.steps with
        ⟨last, leads⟩ | ⟨before, name, later, directory, cause, steps, leads, stops⟩
      · exact .inr ⟨_, .directory spelled leads⟩
      · have meets : files.Meets path directory name later := .behind steps leads
        by_cases isLast : later = []
        · subst isLast
          exact meets.opens_or_unwritable spelled stops
        · exact .inr ⟨cause, meets.unwritable_of_stops spelled stops isLast⟩

theorem outputLocation_eq_error_iff :
    files.outputLocation text = .error cause ↔ files.Unwritable text cause := by
  constructor
  · intro failed
    rcases opens_or_unwritable files text with ⟨location, opens⟩ | ⟨other, unwritable⟩
    · rw [outputLocation_eq_ok_iff_opens.mpr opens] at failed
      cases failed
    · rw [unwritable.outputLocation_eq, Except.error.injEq] at failed
      exact failed ▸ unwritable
  · exact Unwritable.outputLocation_eq

/-- A file can be written where it is read. -/
theorem HasFile.opens (hasFile : files.HasFile text location content) :
    files.Opens text location := by
  cases hasFile with
  | file spelled meets noSlash fits held =>
      exact .place spelled meets noSlash (.entry fits (by simp [held]))

/-- Two paths lead to one file. -/
def SameFile (files : FileSystem) (first second : Text) : Prop :=
  ∃ location content, files.HasFile first location content ∧ files.HasFile second location content

theorem SameFile.read_eq {first second : Text} (same : files.SameFile first second) :
    files.read first = files.read second := by
  obtain ⟨location, content, firstFile, secondFile⟩ := same
  rw [firstFile.read_eq, secondFile.read_eq]

/-! ## Replaced files -/

namespace Replaced

variable {after : FileSystem} {other : Location} {held : ByteArray}

theorem meets_iff (replaced : Replaced files location content after) :
    after.Meets path directory name later ↔ files.Meets path directory name later := by
  have same (steps : List Step) : after.Leads (after.start path) steps directory ↔
      files.Leads (files.start path) steps directory := by
    rw [← FileSystem.walk_eq_ok_iff, ← FileSystem.walk_eq_ok_iff, replaced.walk_eq_ok_iff, start,
      start, replaced.workingDirectory]
  constructor
  · rintro ⟨steps, leads⟩
    exact .behind steps ((same _).mp leads)
  · rintro ⟨steps, leads⟩
    exact .behind steps ((same _).mpr leads)

/-- A path that leads to another file still leads there. -/
theorem hasFile (replaced : Replaced files location content after)
    (hasFile : files.HasFile text other held) (apart : other ≠ location) :
    after.HasFile text other held := by
  cases hasFile with
  | file spelled meets noSlash fits found =>
      exact .file spelled (replaced.meets_iff.mpr meets) noSlash fits
        ((replaced.elsewhere _ apart).trans found)

theorem hasFile_of_opens (replaced : Replaced files location content after)
    (opens : files.Opens text location) : after.HasFile text location content := by
  cases opens with
  | place spelled meets noSlash takesFile =>
      cases takesFile with
      | entry fits _ =>
          exact .file spelled (replaced.meets_iff.mpr meets) noSlash fits replaced.here

/-- What was written to a path is read under it. -/
theorem read_eq (replaced : Replaced files location content after)
    (leads : files.outputLocation text = .ok location) : after.read text = .ok content :=
  (replaced.hasFile_of_opens (outputLocation_eq_ok_iff_opens.mp leads)).read_eq

/-- What is read under a path is the same before and after, unless the path leads to the file that
was written. -/
theorem readText_eq (replaced : Replaced files location content after) {css target : Text}
    (opens : files.Opens target location) (read : files.readText text = .ok css)
    (apart : ¬ after.SameFile text target) : after.readText text = .ok css := by
  obtain ⟨other, found⟩ := readText_eq_ok_iff.mp read
  -- A path that led to the file before still does, and then both lead to it.
  have different : other ≠ location := by
    rintro rfl
    exact apart ⟨_, _, replaced.hasFile_of_opens found.opens, replaced.hasFile_of_opens opens⟩
  exact readText_eq_ok_iff.mpr ⟨other, replaced.hasFile found different⟩

end Replaced

end ScopedCss.Files.FileSystem
