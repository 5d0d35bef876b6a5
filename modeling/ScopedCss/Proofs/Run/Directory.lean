import ScopedCss.CommandLine
import ScopedCss.Proofs.Files.Join
import ScopedCss.Proofs.Settings.Document
import ScopedCss.Run.Directory

set_option autoImplicit false

/-!
# Runs with the settings of a directory

A directory gives the settings that its settings file holds, and the defaults if it holds no such
file. Where the settings come from makes no difference to the run.
-/

namespace ScopedCss

open Files (FileSystem Path)
open Files.FileSystem (bytesOf)

namespace Settings

variable {files : FileSystem} {directory : Text}

theorem isName_fileName : Path.IsName fileName where
  nonempty := by decide
  noSlash := by decide
  noNul := by decide
  notStay := by decide
  notUp := by decide

theorem inDirectory_of_refuses {cause : Files.Failure}
    (refuses : files.Refuses (pathIn directory) cause) :
    inDirectory files directory = (.ok defaults, []) := by
  have noFile : files.isRegularFile (pathIn directory) = false := by
    rw [Bool.eq_false_iff, Ne, Files.FileSystem.isRegularFile_iff]
    exact Files.FileSystem.exists_refuses_iff.mp ⟨cause, refuses⟩
  simp only [inDirectory, noFile, Bool.false_eq_true, ↓reduceIte]

theorem inDirectory_of_hasFile {location : Files.Location} {content : ByteArray}
    (hasFile : files.HasFile (pathIn directory) location content) :
    inDirectory files directory =
      (ofFile files (pathIn directory), [usingRecord (pathIn directory)]) := by
  have isFile := Files.FileSystem.isRegularFile_iff.mpr ⟨location, content, hasFile⟩
  simp only [inDirectory, isFile, ↓reduceIte]

/-- What a settings file says depends on its content alone. -/
theorem ofFile_eq_ok_iff_of_hasFile {path : Text} {location : Files.Location} {content : ByteArray}
    (hasFile : files.HasFile path location content) {settings : Settings} :
    ofFile files path = .ok settings ↔
      ∃ text given, content = bytesOf text ∧ Document given text ∧ Overlays given settings := by
  have decoded (text : Text) : files.readText path = .ok text ↔ content = bytesOf text := by
    rw [Files.FileSystem.readText, hasFile.read_eq]
    exact Files.FileSystem.textOf_eq_ok_iff
  simp only [ofFile_eq_ok_iff_ofDocument, ofDocument_eq_ok_iff, decoded, exists_and_left]

end Settings

namespace Run

variable {files : FileSystem} {directory : Text} {settings : Settings}
  {log : List Log.Record}

theorem inDirectory_of_error {failure : Settings.LoadFailure}
    (found : Settings.inDirectory files directory = (.error failure, log)) :
    inDirectory directory files = (.error failure, log, files) := by
  simp only [inDirectory, found]

theorem inDirectory_of_ok (found : Settings.inDirectory files directory = (.ok settings, log)) :
    inDirectory directory files =
      (.ok (onFiles settings files).1.result, log ++ (onFiles settings files).1.log,
        (onFiles settings files).2) := by
  simp only [inDirectory, found]

/-- The settings file of a directory is the file that has its name there, however the directory is
spelled. Without one the defaults are used, in the way in which the command uses them. With one
there is no run unless it is read and accepted, and then the run is the same as one of these
settings from anywhere else. -/
theorem inDirectory_agrees (files : FileSystem) (directory : Text) :
    let path := Settings.pathIn directory
    let record : Log.Record := ⟨.debug, .settings, "using config ".toList ++ path⟩
    (∀ location content, files.HasFile path location content ↔
      Text.byteLength path < Path.lengthLimit ∧ ∃ place, files.LeadsTo directory place ∧
        location = Settings.fileName :: place ∧ files.find? location = some (.file content)) ∧
    ((∃ cause, files.Refuses path cause) ↔
      ¬ ∃ location content, files.HasFile path location content) ∧
    (∀ cause, files.Refuses path cause →
      let run := onFiles Settings.defaults files
      Settings.inDirectory files directory = (.ok Settings.defaults, []) ∧
      inDirectory directory files = (.ok run.1.result, run.1.log, run.2) ∧
      ∀ filter, CommandLine.onFiles filter files =
        (CommandLine.transcript filter run.1, run.2)) ∧
    ∀ location content, files.HasFile path location content →
      Settings.inDirectory files directory = (Settings.ofFile files path, [record]) ∧
      (∀ settings, Settings.ofFile files path = .ok settings ↔
        ∃ text given, content = bytesOf text ∧ Settings.Document given text ∧
          Settings.Overlays given settings) ∧
      (∀ failure, Settings.ofFile files path = .error failure →
        inDirectory directory files = (.error failure, [record], files)) ∧
      ∀ settings, Settings.ofFile files path = .ok settings →
        let run := onFiles settings files
        inDirectory directory files = (.ok run.1.result, record :: run.1.log, run.2) := by
  intro path record
  refine ⟨?_, ?_, ?_, ?_⟩
  · intro location content
    have fits : Text.byteLength Settings.fileName ≤ FileSystem.nameLimit := by decide
    have joined := @FileSystem.hasFile_join_iff files directory _ location content
      Settings.isName_fileName
    rwa [and_iff_left fits] at joined
  · exact FileSystem.exists_refuses_iff
  · intro cause refuses
    have found := Settings.inDirectory_of_refuses refuses
    exact ⟨found, inDirectory_of_ok found, fun filter => rfl⟩
  · intro location content hasFile
    have found := Settings.inDirectory_of_hasFile hasFile
    refine ⟨found, fun settings => Settings.ofFile_eq_ok_iff_of_hasFile hasFile, ?_, ?_⟩
    · intro failure refused
      rw [refused] at found
      exact inDirectory_of_error found
    · intro settings accepted
      rw [accepted] at found
      exact inDirectory_of_ok found

/-- A settings file that names itself as the input and the output. -/
theorem inDirectory_agrees_self :
    let document :=
      "\x7b\"input\":\"css-shield.json\",\"output\":\"./css-shield.json\"\x7d".toList
    let files : FileSystem :=
      ⟨[([['w']], .directory), ([Settings.fileName, ['w']], .file (bytesOf document))], [['w']]⟩
    let settings : Settings :=
      ⟨Settings.fileName, "./css-shield.json".toList, Settings.defaults.wrapper⟩
    files.HasFile (Settings.pathIn ".//".toList) [Settings.fileName, ['w']] (bytesOf document) ∧
      Settings.ofFile files (Settings.pathIn ".//".toList) = .ok settings ∧
      (onFiles settings files).1.result = .ok (.done settings.output 0) ∧
      inDirectory ".//".toList files =
        (.ok (onFiles settings files).1.result,
          Settings.usingRecord ".//css-shield.json".toList :: (onFiles settings files).1.log,
          (onFiles settings files).2) := by
  intro document files settings
  obtain ⟨isSettingsFile, _, _, agrees⟩ := inDirectory_agrees files ".//".toList
  have accepted : Settings.ofFile files (Settings.pathIn ".//".toList) = .ok settings := by
    decide +kernel
  have hasFile :
      files.HasFile (Settings.pathIn ".//".toList) [Settings.fileName, ['w']] (bytesOf document) := by
    refine (isSettingsFile _ _).mpr ⟨by decide +kernel, [['w']], ?_, rfl, by decide +kernel⟩
    have spelled : Path.ofText ".//".toList = .ok ⟨false, [.stay], true⟩ := by decide +kernel
    exact .spelled spelled (.stay .here)
  obtain ⟨_, _, _, runs⟩ := agrees _ _ hasFile
  exact ⟨hasFile, accepted, by decide +kernel, runs settings accepted⟩

end Run

end ScopedCss
