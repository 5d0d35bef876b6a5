import Mathlib.Data.List.Basic
import ScopedCss.Files.Access

set_option autoImplicit false

/-!
# Where a path leads

Steps lead from directory to directory, up to the first entry that is none (`Leads`, `Stops`). A
path is read if it leads to a file, and otherwise it is refused for what it meets first
(`read_eq_ok_iff`, `read_eq_error_iff`).
-/

namespace ScopedCss.Files

namespace Path

variable {text : Text} {path : Path}

/-- The steps that a text spells: what stands between the slashes, where `.` stays in the directory
and `..` leaves it. -/
def stepsIn (text : Text) : List Step :=
  ((text.splitOn '/').filter fun component => !component.isEmpty).map fun component =>
    if component = ['.'] then .stay else if component = ['.', '.'] then .up else .down component

theorem ofText_eq_ok_iff :
    ofText text = .ok path ↔
      ('\x00' ∉ text ∧ text ≠ [] ∧ Text.byteLength text < lengthLimit) ∧
        path = ⟨text.head? = some '/', stepsIn text, text.getLast? = some '/'⟩ := by
  unfold ofText
  split
  · rename_i present
    simp [present]
  · rename_i absent
    split
    · rename_i nothing
      simp [nothing]
    · rename_i something
      split
      · rename_i long
        simp [Nat.not_lt.mpr long]
      · rename_i fits
        constructor
        · intro spelled
          exact ⟨⟨absent, something, Nat.not_le.mp fits⟩, (Except.ok.inj spelled).symm⟩
        · intro spelled
          exact congrArg Except.ok spelled.2.symm

theorem ofText_eq_error_iff {cause : Failure} :
    ofText text = .error cause ↔
      '\x00' ∈ text ∧ cause = .nulInPath ∨
      '\x00' ∉ text ∧ text = [] ∧ cause = .notFound ∨
      '\x00' ∉ text ∧ text ≠ [] ∧ lengthLimit ≤ Text.byteLength text ∧ cause = .nameTooLong := by
  unfold ofText
  split
  · rename_i present
    simp [present, eq_comm]
  · rename_i absent
    split
    · rename_i nothing
      simp [nothing, eq_comm]
    · rename_i something
      split
      · rename_i long
        simp [absent, something, long, eq_comm]
      · rename_i fits
        simp [absent, something, fits]

theorem ofText_of_nul (present : '\x00' ∈ text) : ofText text = .error .nulInPath :=
  if_pos present

theorem ofText_nil : ofText [] = .error .notFound := rfl

theorem ofText_of_long (absent : '\x00' ∉ text) (long : lengthLimit ≤ Text.byteLength text) :
    ofText text = .error .nameTooLong := by
  have something : text ≠ [] := by
    intro nothing
    rw [nothing] at long
    exact absurd long (by decide)
  simp [ofText, absent, something, long]

end Path

namespace FileSystem

variable {files : FileSystem} {directory place last location : Location} {name : Name}
  {before later steps : List Step} {path : Path} {text : Text} {content : ByteArray}
  {node : Node} {cause : Failure}

theorem lookup_cons_eq_ok_iff :
    files.lookup (name :: directory) = .ok node ↔
      Text.byteLength name ≤ nameLimit ∧ files.find? (name :: directory) = some node := by
  rw [lookup]
  split
  · rename_i long
    simp [Nat.not_le.mpr long]
  · rename_i fits
    cases files.find? (name :: directory) with
    | none => simp
    | some found => simp [Nat.not_lt.mp fits]

/-! ## Steps -/

/-- The steps lead through directories from the first location to the second. -/
inductive Leads (files : FileSystem) : Location → List Step → Location → Prop where
  | here {directory : Location} : Leads files directory [] directory
  | stay {directory last : Location} {later : List Step} :
      Leads files directory later last → Leads files directory (.stay :: later) last
  | up {directory last : Location} {later : List Step} :
      Leads files directory.tail later last → Leads files directory (.up :: later) last
  | down {directory last : Location} {name : Name} {later : List Step} :
      Text.byteLength name ≤ nameLimit → files.find? (name :: directory) = some .directory →
      Leads files (name :: directory) later last → Leads files directory (.down name :: later) last

/-- No step leads into the entry of a directory, and this is why. -/
inductive Stops (files : FileSystem) (directory : Location) (name : Name) : Failure → Prop where
  | missing (fits : Text.byteLength name ≤ nameLimit)
      (absent : files.find? (name :: directory) = none) : Stops files directory name .notFound
  | longName (long : nameLimit < Text.byteLength name) : Stops files directory name .nameTooLong
  | file {content : ByteArray} (fits : Text.byteLength name ≤ nameLimit)
      (held : files.find? (name :: directory) = some (.file content)) :
      Stops files directory name .notADirectory

theorem Stops.enter_eq (stops : files.Stops directory name cause) :
    files.enter directory (.down name) = .error cause := by
  cases stops with
  | missing fits absent => simp [enter, lookup, Nat.not_lt.mpr fits, absent]
  | longName long => simp [enter, lookup, long]
  | file fits held => simp [enter, lookup, Nat.not_lt.mpr fits, held]

theorem Leads.walk_append (leads : files.Leads directory before place) (later : List Step) :
    files.walk directory (before ++ later) = files.walk place later := by
  induction leads with
  | here => rfl
  | stay _ ih => exact ih
  | up _ ih => exact ih
  | down fits isDirectory _ ih =>
      have looked := lookup_cons_eq_ok_iff.mpr ⟨fits, isDirectory⟩
      simpa only [List.cons_append, walk, enter, looked] using ih

theorem Leads.walk_eq (leads : files.Leads directory steps last) :
    files.walk directory steps = .ok last := by
  have walked := leads.walk_append []
  rwa [List.append_nil] at walked

theorem Leads.walk_append_of_stops (leads : files.Leads directory before place)
    (stops : files.Stops place name cause) (later : List Step) :
    files.walk directory (before ++ .down name :: later) = .error cause := by
  rw [leads.walk_append, walk, stops.enter_eq]

theorem leads_append_iff :
    files.Leads directory (before ++ later) last ↔
      ∃ place, files.Leads directory before place ∧ files.Leads place later last := by
  constructor
  · intro leads
    induction before generalizing directory with
    | nil => exact ⟨directory, .here, leads⟩
    | cons step before ih =>
        cases leads with
        | stay leads =>
            obtain ⟨place, first, second⟩ := ih leads
            exact ⟨place, .stay first, second⟩
        | up leads =>
            obtain ⟨place, first, second⟩ := ih leads
            exact ⟨place, .up first, second⟩
        | down fits isDirectory leads =>
            obtain ⟨place, first, second⟩ := ih leads
            exact ⟨place, .down fits isDirectory first, second⟩
  · rintro ⟨place, first, second⟩
    induction first with
    | here => exact second
    | stay _ ih => exact .stay (ih second)
    | up _ ih => exact .up (ih second)
    | down fits isDirectory _ ih => exact .down fits isDirectory (ih second)

theorem directory_or_stops (files : FileSystem) (directory : Location) (name : Name) :
    Text.byteLength name ≤ nameLimit ∧ files.find? (name :: directory) = some .directory ∨
      ∃ cause, files.Stops directory name cause := by
  by_cases long : nameLimit < Text.byteLength name
  · exact .inr ⟨_, .longName long⟩
  · have fits := Nat.not_lt.mp long
    cases found : files.find? (name :: directory) with
    | none => exact .inr ⟨_, .missing fits found⟩
    | some node =>
        cases node with
        | file content => exact .inr ⟨_, .file fits found⟩
        | directory => exact .inl ⟨fits, rfl⟩

/-- Steps lead through directories to their end or up to an entry that stops them. -/
theorem leads_or_stops (files : FileSystem) (directory : Location) (steps : List Step) :
    (∃ last, files.Leads directory steps last) ∨
    ∃ before name later place cause, steps = before ++ .down name :: later ∧
      files.Leads directory before place ∧ files.Stops place name cause := by
  induction steps generalizing directory with
  | nil => exact .inl ⟨directory, .here⟩
  | cons step steps ih =>
      cases step with
      | stay =>
          rcases ih directory with
            ⟨last, leads⟩ | ⟨before, name, later, place, cause, rfl, leads, stops⟩
          · exact .inl ⟨last, .stay leads⟩
          · exact .inr ⟨.stay :: before, name, later, place, cause, rfl, .stay leads, stops⟩
      | up =>
          rcases ih directory.tail with
            ⟨last, leads⟩ | ⟨before, name, later, place, cause, rfl, leads, stops⟩
          · exact .inl ⟨last, .up leads⟩
          · exact .inr ⟨.up :: before, name, later, place, cause, rfl, .up leads, stops⟩
      | down name =>
          rcases directory_or_stops files directory name with ⟨fits, isDirectory⟩ | ⟨cause, stops⟩
          · rcases ih (name :: directory) with
              ⟨last, leads⟩ | ⟨before, other, later, place, cause, rfl, leads, stops⟩
            · exact .inl ⟨last, .down fits isDirectory leads⟩
            · exact .inr ⟨.down name :: before, other, later, place, cause, rfl,
                .down fits isDirectory leads, stops⟩
          · exact .inr ⟨[], name, steps, directory, cause, rfl, .here, stops⟩

theorem walk_eq_ok_iff :
    files.walk directory steps = .ok last ↔ files.Leads directory steps last := by
  constructor
  · intro walked
    rcases leads_or_stops files directory steps with
      ⟨place, leads⟩ | ⟨before, name, later, place, cause, rfl, leads, stops⟩
    · rw [leads.walk_eq, Except.ok.injEq] at walked
      exact walked ▸ leads
    · rw [leads.walk_append_of_stops stops] at walked
      cases walked
  · exact Leads.walk_eq

/-! ## Paths -/

/-- Where the steps of a path start. -/
def start (files : FileSystem) (path : Path) : Location :=
  if path.absolute then [] else files.workingDirectory

/-- A path leads through directories to one that it looks for an entry in. The steps behind the
entry are `later`. -/
inductive Meets (files : FileSystem) (path : Path) (directory : Location) (name : Name)
    (later : List Step) : Prop where
  | behind {before : List Step} (steps : path.steps = before ++ .down name :: later)
      (leads : files.Leads (files.start path) before directory) :
      Meets files path directory name later

theorem Meets.target_eq (meets : files.Meets path directory name []) :
    files.target path = .ok (.entry (name :: directory)) := by
  obtain ⟨steps, leads⟩ := meets
  have walked := leads.walk_eq
  rw [start] at walked
  simp [target, steps, walked]

theorem Meets.target_eq_of_stops (meets : files.Meets path directory name later)
    (stops : files.Stops directory name cause) (goesOn : later ≠ []) :
    files.target path = .error cause := by
  obtain @⟨before, steps, leads⟩ := meets
  have shorter : path.steps.dropLast = before ++ .down name :: later.dropLast := by
    rw [steps, List.dropLast_append_of_ne_nil (by simp), List.dropLast_cons_of_ne_nil goesOn]
  have walked := leads.walk_append_of_stops stops later.dropLast
  rw [start] at walked
  simp only [target, shorter, walked]

theorem Meets.nodeAt_eq (meets : files.Meets path directory name [])
    (fits : Text.byteLength name ≤ nameLimit)
    (held : files.find? (name :: directory) = some (.file content)) :
    files.nodeAt path =
      if path.endsInSlash then .error .notADirectory else .ok (.file content) := by
  have looked := lookup_cons_eq_ok_iff.mpr ⟨fits, held⟩
  simp only [nodeAt, meets.target_eq, looked]

theorem Meets.nodeAt_eq_of_stops (meets : files.Meets path directory name later)
    (stops : files.Stops directory name cause)
    (goesOn : cause = .notADirectory → later ≠ [] ∨ path.endsInSlash = true) :
    files.nodeAt path = .error cause := by
  by_cases isLast : later = []
  · subst isLast
    cases stops with
    | missing fits absent =>
        simp [nodeAt, meets.target_eq, lookup, Nat.not_lt.mpr fits, absent]
    | longName long => simp [nodeAt, meets.target_eq, lookup, long]
    | file fits held =>
        have slash : path.endsInSlash = true := by simpa using goesOn rfl
        rw [meets.nodeAt_eq fits held, if_pos slash]
  · simp only [nodeAt, meets.target_eq_of_stops stops isLast]

/-- A path of steps that lead through directories is about the last of them. -/
theorem Leads.nodeAt_eq (leads : files.Leads (files.start path) path.steps last) :
    files.nodeAt path = .ok .directory := by
  rcases List.eq_nil_or_concat path.steps with noSteps | ⟨before, step, steps⟩
  · simp [nodeAt, target, noSteps, walk]
  · rw [List.concat_eq_append] at steps
    rw [steps] at leads
    obtain ⟨place, first, second⟩ := leads_append_iff.mp leads
    have walked := first.walk_eq
    rw [start] at walked
    -- Only a last step to a name is looked up. After any other the walk has reached the directory.
    cases second with
    | stay _ => simp [nodeAt, target, steps, walked]
    | up _ => simp [nodeAt, target, steps, walked]
    | down fits isDirectory _ =>
        have looked := lookup_cons_eq_ok_iff.mpr ⟨fits, isDirectory⟩
        simp [nodeAt, target, steps, walked, looked]

/-! ## Reading -/

/-- A path leads to a file at a location, which holds `content`. -/
inductive HasFile (files : FileSystem) (text : Text) : Location → ByteArray → Prop where
  | file {path : Path} {directory : Location} {name : Name} {content : ByteArray}
      (spelled : Path.ofText text = .ok path) (meets : files.Meets path directory name [])
      (noSlash : path.endsInSlash = false) (fits : Text.byteLength name ≤ nameLimit)
      (held : files.find? (name :: directory) = some (.file content)) :
      HasFile files text (name :: directory) content

/-- A path leads to no file, and this is why. -/
inductive Refuses (files : FileSystem) (text : Text) : Failure → Prop where
  | nul (present : '\x00' ∈ text) : Refuses files text .nulInPath
  | empty (nothing : text = []) : Refuses files text .notFound
  | longPath (absent : '\x00' ∉ text) (long : Path.lengthLimit ≤ Text.byteLength text) :
      Refuses files text .nameTooLong
  /-- An entry on the way or the last one is not there. -/
  | missing {path : Path} {directory : Location} {name : Name} {later : List Step}
      (spelled : Path.ofText text = .ok path) (meets : files.Meets path directory name later)
      (fits : Text.byteLength name ≤ nameLimit)
      (absent : files.find? (name :: directory) = none) : Refuses files text .notFound
  | longName {path : Path} {directory : Location} {name : Name} {later : List Step}
      (spelled : Path.ofText text = .ok path) (meets : files.Meets path directory name later)
      (long : nameLimit < Text.byteLength name) : Refuses files text .nameTooLong
  /-- A file is used as a directory. -/
  | belowFile {path : Path} {directory : Location} {name : Name} {later : List Step}
      {content : ByteArray} (spelled : Path.ofText text = .ok path)
      (meets : files.Meets path directory name later) (fits : Text.byteLength name ≤ nameLimit)
      (held : files.find? (name :: directory) = some (.file content))
      (goesOn : later ≠ [] ∨ path.endsInSlash = true) : Refuses files text .notADirectory
  | directory {path : Path} {last : Location} (spelled : Path.ofText text = .ok path)
      (leads : files.Leads (files.start path) path.steps last) : Refuses files text .isADirectory

theorem ofText_bind_nodeAt (spelled : Path.ofText text = .ok path) :
    (Path.ofText text >>= files.nodeAt) = files.nodeAt path := by
  rw [spelled]
  rfl

theorem HasFile.read_eq (hasFile : files.HasFile text location content) :
    files.read text = .ok content := by
  cases hasFile with
  | file spelled meets noSlash fits held =>
      simp [read, ofText_bind_nodeAt spelled, meets.nodeAt_eq fits held, noSlash]

theorem Refuses.read_eq (refuses : files.Refuses text cause) : files.read text = .error cause := by
  cases refuses with
  | nul present => simp [read, Path.ofText_of_nul present, bind, Except.bind]
  | empty nothing => simp [read, nothing, Path.ofText_nil, bind, Except.bind]
  | longPath absent long => simp [read, Path.ofText_of_long absent long, bind, Except.bind]
  | missing spelled meets fits absent =>
      simp [read, ofText_bind_nodeAt spelled, meets.nodeAt_eq_of_stops (.missing fits absent) nofun]
  | longName spelled meets long =>
      simp [read, ofText_bind_nodeAt spelled, meets.nodeAt_eq_of_stops (.longName long) nofun]
  | belowFile spelled meets fits held goesOn =>
      have stopped := meets.nodeAt_eq_of_stops (.file fits held) fun _ => goesOn
      simp [read, ofText_bind_nodeAt spelled, stopped]
  | directory spelled leads => simp [read, ofText_bind_nodeAt spelled, leads.nodeAt_eq]

/-- What can be in the way of a path. -/
def refusals : List Failure :=
  [.notFound, .notADirectory, .isADirectory, .nameTooLong, .nulInPath]

theorem Refuses.mem_refusals (refuses : files.Refuses text cause) : cause ∈ refusals := by
  cases refuses <;> simp [refusals]

/-- Every text leads to a file or is refused. -/
theorem hasFile_or_refuses (files : FileSystem) (text : Text) :
    (∃ location content, files.HasFile text location content) ∨
      ∃ cause, files.Refuses text cause := by
  cases spelled : Path.ofText text with
  | error cause =>
      rcases Path.ofText_eq_error_iff.mp spelled with
        ⟨present, _⟩ | ⟨_, nothing, _⟩ | ⟨absent, _, long, _⟩
      · exact .inr ⟨_, .nul present⟩
      · exact .inr ⟨_, .empty nothing⟩
      · exact .inr ⟨_, .longPath absent long⟩
  | ok path =>
      rcases leads_or_stops files (files.start path) path.steps with
        ⟨last, leads⟩ | ⟨before, name, later, directory, cause, steps, leads, stops⟩
      · exact .inr ⟨_, .directory spelled leads⟩
      · have meets : files.Meets path directory name later := .behind steps leads
        cases stops with
        | missing fits absent => exact .inr ⟨_, .missing spelled meets fits absent⟩
        | longName long => exact .inr ⟨_, .longName spelled meets long⟩
        | file fits held =>
            by_cases goesOn : later ≠ [] ∨ path.endsInSlash = true
            · exact .inr ⟨_, .belowFile spelled meets fits held goesOn⟩
            · obtain ⟨rfl, noSlash⟩ : later = [] ∧ path.endsInSlash = false := by simpa using goesOn
              exact .inl ⟨_, _, .file spelled meets noSlash fits held⟩

theorem read_eq_ok_iff :
    files.read text = .ok content ↔ ∃ location, files.HasFile text location content := by
  constructor
  · intro read
    rcases hasFile_or_refuses files text with ⟨location, other, hasFile⟩ | ⟨cause, refuses⟩
    · rw [hasFile.read_eq, Except.ok.injEq] at read
      exact ⟨location, read ▸ hasFile⟩
    · rw [refuses.read_eq] at read
      cases read
  · rintro ⟨location, hasFile⟩
    exact hasFile.read_eq

theorem read_eq_error_iff : files.read text = .error cause ↔ files.Refuses text cause := by
  constructor
  · intro read
    rcases hasFile_or_refuses files text with ⟨location, content, hasFile⟩ | ⟨other, refuses⟩
    · rw [hasFile.read_eq] at read
      cases read
    · rw [refuses.read_eq, Except.error.injEq] at read
      exact read ▸ refuses
  · exact Refuses.read_eq

theorem exists_refuses_iff :
    (∃ cause, files.Refuses text cause) ↔
      ¬ ∃ location content, files.HasFile text location content := by
  constructor
  · rintro ⟨cause, refuses⟩ ⟨location, content, hasFile⟩
    have read := hasFile.read_eq
    rw [refuses.read_eq] at read
    cases read
  · exact (hasFile_or_refuses files text).resolve_left

theorem isRegularFile_iff :
    files.isRegularFile text = true ↔ ∃ location content, files.HasFile text location content := by
  have readable : files.isRegularFile text = true ↔ ∃ content, files.read text = .ok content := by
    unfold isRegularFile read
    cases Path.ofText text >>= files.nodeAt with
    | error cause => simp
    | ok node => cases node <;> simp
  simp only [readable, read_eq_ok_iff]
  exact exists_comm

/-! ## Reading texts -/

theorem textOf_eq_ok_iff {css : Text} : textOf content = .ok css ↔ content = bytesOf css := by
  constructor
  · intro decoded
    unfold textOf String.fromUTF8? at decoded
    split at decoded
    · rename_i string valid
      split at valid
      · cases valid
        cases decoded
        rw [bytesOf, String.ofList_toList]
        rfl
      · cases valid
    · cases decoded
  · rintro rfl
    exact textOf_bytesOf css

theorem textOf_eq_error_iff :
    textOf content = .error cause ↔ cause = .notText ∧ ∀ css, content ≠ bytesOf css := by
  simp only [ne_eq, ← textOf_eq_ok_iff]
  unfold textOf
  cases String.fromUTF8? content with
  | none => simp [eq_comm]
  | some string => simp

/-- A path leads to no text, and this is why. -/
inductive Unreadable (files : FileSystem) (text : Text) : Failure → Prop where
  | refused {cause : Failure} (refuses : files.Refuses text cause) : Unreadable files text cause
  /-- The content is no text in UTF-8. -/
  | notText {location : Location} {content : ByteArray}
      (hasFile : files.HasFile text location content) (invalid : ∀ css, content ≠ bytesOf css) :
      Unreadable files text .notText

theorem readText_eq_ok_iff {css : Text} :
    files.readText text = .ok css ↔ ∃ location, files.HasFile text location (bytesOf css) := by
  rw [← read_eq_ok_iff, readText]
  cases files.read text with
  | error cause => simp [bind, Except.bind]
  | ok content => simp [bind, Except.bind, textOf_eq_ok_iff]

theorem readText_eq_error_iff :
    files.readText text = .error cause ↔ files.Unreadable text cause := by
  constructor
  · intro failed
    cases read : files.read text with
    | error other =>
        rw [readText, read] at failed
        cases failed
        exact .refused (read_eq_error_iff.mp read)
    | ok content =>
        rw [readText, read] at failed
        obtain ⟨rfl, invalid⟩ := textOf_eq_error_iff.mp failed
        obtain ⟨location, hasFile⟩ := read_eq_ok_iff.mp read
        exact .notText hasFile invalid
  · intro unreadable
    cases unreadable with
    | refused refuses =>
        rw [readText, refuses.read_eq]
        rfl
    | notText hasFile invalid =>
        rw [readText, hasFile.read_eq]
        exact textOf_eq_error_iff.mpr ⟨rfl, invalid⟩

end FileSystem

end ScopedCss.Files
