import ScopedCss.Proofs.Run.Effect
import ScopedCss.Proofs.Stylesheet.RuleCount

set_option autoImplicit false

/-!
# Runs on what a run has written

The output of a run is text under a path that can be written to, so a later run can read it, and a
run in place can write it again. The number of rules stays the same as long as no wrapper holds a
closing brace.
-/

namespace ScopedCss.Run

open Files (FileSystem)
open Files.FileSystem (bytesOf)

/-- Runs one after the other, each on the files that the run before it left. -/
def series : List Settings → FileSystem → List (Except Failure Outcome) × FileSystem
  | [], files => ([], files)
  | settings :: later, files =>
      let (report, after) := onFiles settings files
      let (results, final) := series later after
      (report.result :: results, final)

/-- The settings of a run that writes over its own input. -/
def inPlace (path wrapper : Text) : Settings := ⟨path, path, wrapper⟩

/-- A file under a path that holds a text and can be written to. -/
structure Editable (files : FileSystem) (path text : Text) : Prop where
  read : files.read path = .ok (bytesOf text)
  leads : ∃ location, files.outputLocation path = .ok location

variable {files after : FileSystem} {settings : Settings} {path text : Text}

theorem Editable.readText (editable : Editable files path text) :
    files.readText path = .ok text := by
  simp [FileSystem.readText, editable.read, bind, Except.bind, FileSystem.textOf_bytesOf]

theorem effect_of_onFiles_eq {report : Report} (run : onFiles settings files = (report, after)) :
    Effect settings files report.result after := by
  have effect := effect_onFiles settings files
  rwa [run] at effect

theorem Effect.exists_of_done {output : Text} {rules : Nat}
    (effect : Effect settings files (.ok (.done output rules)) after) :
    output = settings.output ∧ ∃ css, files.readText settings.input = .ok css ∧
      rules = (Rule.allIn css).length ∧
      Editable after output (Stylesheet.scope settings.wrapper css) := by
  cases effect with
  | done read leads replaced =>
      exact ⟨rfl, _, read, rfl, replaced.read_eq leads,
        _, replaced.outputLocation_eq_ok_iff.mpr leads⟩

/-- A run that can read its input either writes or finds that it cannot. -/
theorem Effect.of_readText {result : Except Failure Outcome} {css : Text}
    (effect : Effect settings files result after)
    (readable : files.readText settings.input = .ok css) :
    (∃ cause, result = .error (.unwritable settings.output cause) ∧
      files.outputLocation settings.output = .error cause) ∨
    (result = .ok (.done settings.output (Rule.allIn css).length) ∧
      Editable after settings.output (Stylesheet.scope settings.wrapper css)) := by
  cases effect with
  | noInput missing =>
      rw [readable] at missing
      cases missing
  | unreadable refused =>
      rw [readable] at refused
      cases refused
  | unwritable _ refused => exact .inl ⟨_, rfl, refused⟩
  | done read leads replaced =>
      rw [readable, Except.ok.injEq] at read
      subst read
      exact .inr ⟨rfl, replaced.read_eq leads, _, replaced.outputLocation_eq_ok_iff.mpr leads⟩

theorem Editable.onFiles_inPlace (editable : Editable files path text) (wrapper : Text) :
    (onFiles (inPlace path wrapper) files).1.result = .ok (.done path (Rule.allIn text).length) ∧
      Editable (onFiles (inPlace path wrapper) files).2 path (Stylesheet.scope wrapper text) := by
  have effect := effect_onFiles (inPlace path wrapper) files
  rcases effect.of_readText editable.readText with ⟨cause, _, refused⟩ | written
  · obtain ⟨location, leads⟩ := editable.leads
    rw [inPlace, leads] at refused
    cases refused
  · exact written

theorem length_allIn_scope {wrapper : Text} (closeAbsent : '\x7d' ∉ wrapper) (text : Text) :
    (Rule.allIn (Stylesheet.scope wrapper text)).length = (Rule.allIn text).length :=
  @Stylesheet.Pass.length_allIn_apply (.complete wrapper) closeAbsent text

/-- Every run in place writes, and each scopes what the run before it has written. -/
theorem Editable.series_inPlace (editable : Editable files path text) {wrappers : List Text}
    (closeAbsent : ∀ wrapper ∈ wrappers, '\x7d' ∉ wrapper) :
    (series (wrappers.map (inPlace path)) files).1 =
        List.replicate wrappers.length (.ok (.done path (Rule.allIn text).length)) ∧
      Editable (series (wrappers.map (inPlace path)) files).2 path
        (wrappers.foldl (fun css wrapper => Stylesheet.scope wrapper css) text) := by
  induction wrappers generalizing files text with
  | nil => exact ⟨rfl, editable⟩
  | cons wrapper later ih =>
      obtain ⟨result, still⟩ := editable.onFiles_inPlace wrapper
      obtain ⟨results, final⟩ :=
        ih still fun other member => closeAbsent other (List.mem_cons_of_mem _ member)
      rw [length_allIn_scope (closeAbsent wrapper List.mem_cons_self)] at results
      refine ⟨?_, final⟩
      simp only [List.map_cons, series, result, results, List.length_cons, List.replicate_succ]

/-- What a run has written, a later run can read, whatever its own output and wrapper are. If it
writes as well, its output is the first input scoped twice, with as many rules as were reported
before, and so it goes on for any number of runs in place. -/
theorem onFiles_output_of_done {report : Report} {output : Text} {rules : Nat}
    (run : onFiles settings files = (report, after))
    (done : report.result = .ok (.done output rules)) :
    ∃ css, files.readText settings.input = .ok css ∧
      (∀ target wrapper second final,
        onFiles ⟨output, target, wrapper⟩ after = (second, final) →
        (∀ input, second.result ≠ .ok (.noInput input)) ∧
        (∀ input cause, second.result ≠ .error (.unreadable input cause)) ∧
        ∀ written count, second.result = .ok (.done written count) →
          final.read target = .ok (bytesOf
            (Stylesheet.scope wrapper (Stylesheet.scope settings.wrapper css))) ∧
          ('\x7d' ∉ settings.wrapper → count = rules)) ∧
      ∀ wrappers : List Text, (∀ wrapper ∈ settings.wrapper :: wrappers, '\x7d' ∉ wrapper) →
        (series (wrappers.map (inPlace output)) after).1 =
          List.replicate wrappers.length (.ok (.done output rules)) ∧
        (series (wrappers.map (inPlace output)) after).2.read output = .ok (bytesOf
          ((settings.wrapper :: wrappers).foldl
            (fun css wrapper => Stylesheet.scope wrapper css) css)) := by
  have effect := effect_of_onFiles_eq run
  rw [done] at effect
  obtain ⟨rfl, css, read, rfl, editable⟩ := effect.exists_of_done
  refine ⟨css, read, ?_, ?_⟩
  · intro target wrapper second final again
    rcases (effect_of_onFiles_eq again).of_readText editable.readText with
      ⟨cause, refused, _⟩ | ⟨written, secondEditable⟩
    · simp [refused]
    · refine ⟨by simp [written], by simp [written], ?_⟩
      intro other count same
      rw [written, Except.ok.injEq, Outcome.done.injEq] at same
      refine ⟨secondEditable.read, ?_⟩
      intro closeAbsent
      rw [← same.2, length_allIn_scope closeAbsent]
  · intro wrappers closeAbsent
    have series := editable.series_inPlace fun wrapper member =>
      closeAbsent wrapper (List.mem_cons_of_mem _ member)
    rw [length_allIn_scope (closeAbsent _ List.mem_cons_self)] at series
    exact ⟨series.1, series.2.read⟩

theorem onFiles_output_of_done_aliased :
    let css := "@media \x7d\x7b@a\x7bb\x7b;@\x7dc\x7bd\x7d".toList
    let files : FileSystem :=
      ⟨[([['w']], .directory), (["in".toList, ['w']], .file (bytesOf css))], [['w']]⟩
    let settings : Settings := ⟨"in".toList, "./in".toList, "@media".toList⟩
    (onFiles settings files).1.result = .ok (.done "./in".toList 2) ∧
      (series (["@\x7b".toList, ".p".toList].map (inPlace "./in".toList))
          (onFiles settings files).2).1 =
        List.replicate 2 (.ok (.done "./in".toList 2)) := by
  intro css files settings
  have done : (onFiles settings files).1.result = .ok (.done "./in".toList 2) := by decide +kernel
  obtain ⟨_, _, _, inPlaceRuns⟩ := onFiles_output_of_done (Prod.eta _).symm done
  exact ⟨done, (inPlaceRuns ["@\x7b".toList, ".p".toList] (by decide)).1⟩

end ScopedCss.Run
