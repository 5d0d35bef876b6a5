import ScopedCss.Proofs.Files.Resolution

set_option autoImplicit false

/-!
# Files of a directory

A directory and a name joined in one path lead to the file of that name in the directory, however
the directory is spelled (`hasFile_join_iff`).
-/

namespace ScopedCss.Text

theorem byteLength_append (first second : Text) :
    byteLength (first ++ second) = byteLength first + byteLength second := by
  induction first with
  | nil => simp [byteLength]
  | cons character first ih => simp only [List.cons_append, byteLength, ih, Nat.add_assoc]

end ScopedCss.Text

namespace ScopedCss.Files

namespace Path

variable {text directory name : Text} {path : Path}

theorem stepsIn_append_cons (before after : Text) :
    stepsIn (before ++ '/' :: after) = stepsIn before ++ stepsIn after := by
  simp only [stepsIn, List.splitOn_append_cons_self, List.filter_append, List.map_append]

/-- What can be the name of an entry. -/
structure IsName (name : Text) : Prop where
  nonempty : name ≠ []
  noSlash : '/' ∉ name
  noNul : '\x00' ∉ name
  notStay : name ≠ ['.']
  notUp : name ≠ ['.', '.']

theorem IsName.stepsIn_eq (isName : IsName name) : stepsIn name = [.down name] := by
  simp [stepsIn, List.splitOn_eq_singleton isName.noSlash, isName.nonempty, isName.notStay,
    isName.notUp]

theorem stepsIn_nil : stepsIn [] = [] := by
  simp [stepsIn]

theorem join_nil (name : Text) : join [] name = name := by
  simp [join]

/-- Between a directory and a name there is a slash if the directory does not end in one. -/
theorem exists_join_eq (nonempty : directory ≠ []) (name : Text) :
    ∃ between, join directory name = directory ++ between ++ name ∧ between ⊆ ['/'] ∧
      stepsIn (join directory name) = stepsIn directory ++ stepsIn name := by
  by_cases slash : directory.getLast? = some '/'
  · have joined : join directory name = directory ++ name := by simp [join, slash]
    refine ⟨[], by simp [joined], List.nil_subset _, ?_⟩
    obtain ⟨before, rfl⟩ := List.getLast?_eq_some_iff.mp slash
    rw [joined, List.append_assoc, List.singleton_append, stepsIn_append_cons, stepsIn_append_cons,
      stepsIn_nil, List.append_nil]
  · have joined : join directory name = directory ++ '/' :: name := by simp [join, nonempty, slash]
    refine ⟨['/'], by simp [joined], List.Subset.refl _, ?_⟩
    rw [joined, stepsIn_append_cons]

theorem byteLength_le_join (directory name : Text) :
    Text.byteLength directory ≤ Text.byteLength (join directory name) := by
  by_cases nonempty : directory = []
  · simp [nonempty, Text.byteLength]
  · obtain ⟨between, joined, _⟩ := exists_join_eq nonempty name
    rw [joined, List.append_assoc, Text.byteLength_append]
    exact Nat.le_add_right _ _

theorem ofText_join_eq_ok_iff (isName : IsName name) :
    ofText (join directory name) = .ok path ↔
      ('\x00' ∉ directory ∧ Text.byteLength (join directory name) < lengthLimit) ∧
        path = ⟨directory.head? = some '/', stepsIn directory ++ [.down name], false⟩ := by
  have notSlash : name.getLast? ≠ some '/' := fun ends => isName.noSlash (List.mem_of_getLast? ends)
  rw [ofText_eq_ok_iff]
  cases directory with
  | nil =>
      have notTop : name.head? ≠ some '/' := fun starts => isName.noSlash (List.mem_of_head? starts)
      simp [join_nil, isName.stepsIn_eq, stepsIn_nil, isName.nonempty, isName.noNul, notSlash,
        notTop]
  | cons first rest =>
      obtain ⟨between, joined, slashes, steps⟩ := exists_join_eq (List.cons_ne_nil first rest) name
      have noNul : '\x00' ∉ between := fun member => absurd (slashes member) (by decide)
      rw [steps, isName.stepsIn_eq, joined, List.getLast?_append_of_ne_nil _ isName.nonempty]
      simp [isName.noNul, noNul, notSlash]

end Path

namespace FileSystem

open ScopedCss.Files.Path (IsName stepsIn)

variable {files : FileSystem} {directory name : Text} {location place : Location}
  {content : ByteArray}

/-- A text leads to a directory. The empty text stays in the working directory. -/
inductive LeadsTo (files : FileSystem) : Text → Location → Prop where
  | here : LeadsTo files [] files.workingDirectory
  | spelled {directory : Text} {path : Path} {place : Location}
      (spelled : Path.ofText directory = .ok path)
      (leads : files.Leads (files.start path) path.steps place) : LeadsTo files directory place

theorem leadsTo_iff :
    files.LeadsTo directory place ↔
      ('\x00' ∉ directory ∧ Text.byteLength directory < Path.lengthLimit) ∧
      files.Leads (if directory.head? = some '/' then [] else files.workingDirectory)
        (stepsIn directory) place := by
  constructor
  · intro leadsTo
    cases leadsTo with
    | here => exact ⟨by decide, by simpa [Path.stepsIn_nil] using Leads.here⟩
    | spelled spelled leads =>
        obtain ⟨⟨noNul, _, short⟩, rfl⟩ := Path.ofText_eq_ok_iff.mp spelled
        exact ⟨⟨noNul, short⟩, by simpa [start] using leads⟩
  · rintro ⟨⟨noNul, short⟩, leads⟩
    by_cases nonempty : directory = []
    · subst nonempty
      rw [Path.stepsIn_nil] at leads
      cases leads
      exact .here
    · exact .spelled (Path.ofText_eq_ok_iff.mpr ⟨⟨noNul, nonempty, short⟩, rfl⟩)
        (by simpa [start] using leads)

/-- A directory and a name joined in one path lead to the file that has the name there. -/
theorem hasFile_join_iff (isName : IsName name) :
    files.HasFile (Path.join directory name) location content ↔
      (Text.byteLength (Path.join directory name) < Path.lengthLimit ∧
        Text.byteLength name ≤ nameLimit) ∧
      ∃ place, files.LeadsTo directory place ∧ location = name :: place ∧
        files.find? location = some (.file content) := by
  have shorter := Path.byteLength_le_join directory name
  constructor
  · intro hasFile
    cases hasFile with
    | @file path place last _ spelled meets noSlash fits held =>
        obtain ⟨⟨noNul, short⟩, rfl⟩ := (Path.ofText_join_eq_ok_iff isName).mp spelled
        obtain ⟨steps, leads⟩ := meets
        -- The last step of the joined path is the name, so the others are those of the directory.
        obtain ⟨rfl, same⟩ := List.append_inj' steps rfl
        obtain rfl : name = last := by simpa using same
        have leadsTo := leadsTo_iff.mpr
          ⟨⟨noNul, Nat.lt_of_le_of_lt shorter short⟩, by simpa [start] using leads⟩
        exact ⟨⟨short, fits⟩, place, leadsTo, rfl, held⟩
  · rintro ⟨⟨short, fits⟩, place, leadsTo, rfl, held⟩
    obtain ⟨⟨noNul, _⟩, leads⟩ := leadsTo_iff.mp leadsTo
    exact .file ((Path.ofText_join_eq_ok_iff isName).mpr ⟨⟨noNul, short⟩, rfl⟩)
      (.behind rfl (by simpa [start] using leads)) rfl fits held

end FileSystem

end ScopedCss.Files
