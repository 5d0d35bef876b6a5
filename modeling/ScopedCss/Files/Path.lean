import ScopedCss.Files.Failure

set_option autoImplicit false

/-!
# Paths

A path is a series of steps through directories, from the top or from the working directory.
Repeated slashes count once. A slash at the end asks for a directory.
-/

namespace ScopedCss.Files

abbrev Name := Text

/-- A step through directories: `.`, `..`, or an entry's name. -/
inductive Step where
  | stay
  | up
  | down (name : Name)
  deriving DecidableEq

structure Path where
  absolute : Bool
  steps : List Step
  endsInSlash : Bool
  deriving DecidableEq

def Step.ofComponent (component : Text) : Step :=
  if component = ['.'] then .stay
  else if component = ['.', '.'] then .up
  else .down component

namespace Path

/-- The number of bytes from which on a path is too long. -/
def lengthLimit : Nat := 4096

/-- Reads a path. An empty path leads nowhere. -/
def ofText (text : Text) : Except Failure Path :=
  if '\x00' ∈ text then .error .nulInPath
  else if text = [] then .error .notFound
  else if lengthLimit ≤ Text.byteLength text then .error .nameTooLong
  else
    .ok {
      absolute := text.head? = some '/'
      steps := ((text.splitOn '/').filter fun component => !component.isEmpty).map Step.ofComponent
      endsInSlash := text.getLast? = some '/' }

/-- The path without its last entry. Steps `.` at the end of a path do not count as entries. -/
def parent (path : Path) : Path :=
  let entries := path.steps.reverse.dropWhile (· = .stay)
  { path with
    steps := (entries.tail.dropWhile (· = .stay)).reverse
    endsInSlash := false }

theorem parent_steps_length_lt {path : Path} (nonempty : path.steps ≠ []) :
    path.parent.steps.length < path.steps.length := by
  have first := (List.dropWhile_sublist (l := path.steps.reverse) (· = Step.stay)).length_le
  have second := (List.dropWhile_sublist
    (l := (path.steps.reverse.dropWhile (· = Step.stay)).tail) (· = Step.stay)).length_le
  have positive := List.length_pos_iff.mpr nonempty
  simp only [parent, List.length_reverse, List.length_tail] at first second ⊢
  omega

/-- A directory and a file name in one path. A slash is put between them unless one is there
already or the directory is the empty path. -/
def join (directory name : Text) : Text :=
  if directory = [] ∨ directory.getLast? = some '/' then directory ++ name
  else directory ++ '/' :: name

end Path

end ScopedCss.Files
