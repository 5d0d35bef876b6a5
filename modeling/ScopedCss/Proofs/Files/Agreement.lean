import ScopedCss.Proofs.Files.Writing

set_option autoImplicit false

/-!
# Entries that no path names

Two file systems that differ only in the entries of one name are the same to every path without a
step to that name.
-/

namespace ScopedCss.Files

/-- A path without a step to the name. A text that is no path has no steps at all. -/
def Path.Spares (name : Name) (text : Text) : Prop :=
  ∀ path, Path.ofText text = .ok path → Step.down name ∉ path.steps

theorem Path.spares_of_not_mem {name text : Text} (absent : name ∉ text.splitOn '/') :
    Path.Spares name text := by
  intro path spelled member
  obtain ⟨_, rfl⟩ := ofText_eq_ok_iff.mp spelled
  obtain ⟨component, listed, step⟩ := List.mem_map.mp member
  have same : component = name := by
    split at step
    · cases step
    · split at step
      · cases step
      · exact Step.down.inj step
  exact absent (same ▸ (List.mem_filter.mp listed).1)

namespace FileSystem

variable {left right : FileSystem} {name : Name} {location : Location}

/-- The file systems differ at most in what stands under the name, wherever it does. -/
structure SameBut (name : Name) (left right : FileSystem) : Prop where
  workingDirectory : left.workingDirectory = right.workingDirectory
  elsewhere : ∀ location : Location, location.head? ≠ some name →
    left.find? location = right.find? location

theorem exists_of_target_eq_entry {files : FileSystem} {path : Path}
    (reached : files.target path = .ok (.entry location)) :
    ∃ last directory, Step.down last ∈ path.steps ∧ location = last :: directory := by
  obtain ⟨directory, last, ⟨steps, _⟩, rfl⟩ := target_eq_entry_iff.mp reached
  exact ⟨last, directory, by simp [steps], rfl⟩

theorem head?_ne_of_target {files : FileSystem} {path : Path}
    (reached : files.target path = .ok (.entry location)) (spares : Step.down name ∉ path.steps) :
    location.head? ≠ some name := by
  obtain ⟨last, directory, member, rfl⟩ := exists_of_target_eq_entry reached
  intro same
  obtain rfl := Option.some.inj same
  exact spares member

theorem head?_ne_of_outputLocation {files : FileSystem} {path : Text}
    (leads : files.outputLocation path = .ok location) (spares : Path.Spares name path) :
    location.head? ≠ some name := by
  obtain ⟨steps, spelled, writable⟩ := outputLocation_eq_ok_iff.mp leads
  exact head?_ne_of_target (writable_eq_ok_iff.mp writable).1 (spares steps spelled)

theorem sameBut_put (files : FileSystem) (name : Name) (directory : Location) (node : Node) :
    SameBut name files (files.put (name :: directory) node) where
  workingDirectory := rfl
  elsewhere := by
    intro location apart
    have other : location ≠ name :: directory := by
      rintro rfl
      exact apart rfl
    rw [find?_put, if_neg other]

namespace SameBut

theorem lookup_eq (same : SameBut name left right) (apart : location.head? ≠ some name) :
    left.lookup location = right.lookup location := by
  cases location with
  | nil => rfl
  | cons last directory => simp only [lookup, same.elsewhere (last :: directory) apart]

theorem enter_eq (same : SameBut name left right) {step : Step} (spares : Step.down name ≠ step)
    (directory : Location) : left.enter directory step = right.enter directory step := by
  cases step with
  | stay => rfl
  | up => rfl
  | down last =>
      have apart : (last :: directory).head? ≠ some name := by
        intro found
        obtain rfl := Option.some.inj found
        exact spares rfl
      simp only [enter, same.lookup_eq apart]

theorem walk_eq (same : SameBut name left right) {steps : List Step}
    (spares : Step.down name ∉ steps) (directory : Location) :
    left.walk directory steps = right.walk directory steps := by
  induction steps generalizing directory with
  | nil => rfl
  | cons step later ih =>
      simp only [walk, same.enter_eq (List.ne_of_not_mem_cons spares),
        ih (List.not_mem_of_not_mem_cons spares)]

theorem target_eq (same : SameBut name left right) {path : Path}
    (spares : Step.down name ∉ path.steps) : left.target path = right.target path := by
  have before : Step.down name ∉ path.steps.dropLast :=
    fun member => spares (List.dropLast_subset path.steps member)
  simp only [target, same.workingDirectory, same.walk_eq before]

theorem nodeAt_eq (same : SameBut name left right) {path : Path}
    (spares : Step.down name ∉ path.steps) : left.nodeAt path = right.nodeAt path := by
  rw [nodeAt, nodeAt, same.target_eq spares]
  cases reached : right.target path with
  | error failure => rfl
  | ok target =>
      cases target with
      | reached => rfl
      | entry location => simp only [same.lookup_eq (head?_ne_of_target reached spares)]

theorem writable_eq (same : SameBut name left right) {path : Path}
    (spares : Step.down name ∉ path.steps) : left.writable path = right.writable path := by
  rw [writable, writable, same.target_eq spares]
  cases reached : right.target path with
  | error failure => rfl
  | ok target =>
      cases target with
      | reached => rfl
      | entry location => simp only [same.lookup_eq (head?_ne_of_target reached spares)]

theorem readText_eq (same : SameBut name left right) {path : Text}
    (spares : Path.Spares name path) : left.readText path = right.readText path := by
  have nodes : Path.ofText path >>= left.nodeAt = Path.ofText path >>= right.nodeAt := by
    cases spelled : Path.ofText path with
    | error failure => rfl
    | ok steps => exact same.nodeAt_eq (spares steps spelled)
  rw [readText, read, nodes, readText, read]

theorem outputLocation_eq (same : SameBut name left right) {path : Text}
    (spares : Path.Spares name path) : left.outputLocation path = right.outputLocation path := by
  cases spelled : Path.ofText path with
  | error failure => simp only [outputLocation, spelled, bind, Except.bind]
  | ok steps =>
      simp only [outputLocation, spelled, bind, Except.bind]
      exact same.writable_eq (spares steps spelled)

theorem put (same : SameBut name left right) (location : Location) (node : Node) :
    SameBut name (left.put location node) (right.put location node) where
  workingDirectory := same.workingDirectory
  elsewhere := by
    intro other apart
    rw [find?_put, find?_put, same.elsewhere other apart]

end SameBut

end FileSystem

end ScopedCss.Files
