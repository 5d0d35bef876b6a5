import ScopedCss.Text.Blank

set_option autoImplicit false

/-!
# Failures of file operations
-/

namespace ScopedCss.Files

/-- Why a file operation fails. -/
inductive Failure where
  | notFound
  | alreadyExists
  | notADirectory
  | isADirectory
  | nameTooLong
  /-- The content is not valid UTF-8. -/
  | notText
  /-- A path with a NUL character names nothing. -/
  | nulInPath
  /-- Any other failure that an operating system reports, in its own words. -/
  | other (description : Text)
  deriving DecidableEq

def Failure.message : Failure → Text
  | .notFound => "No such file or directory (os error 2)".toList
  | .alreadyExists => "File exists (os error 17)".toList
  | .notADirectory => "Not a directory (os error 20)".toList
  | .isADirectory => "Is a directory (os error 21)".toList
  | .nameTooLong => "File name too long (os error 36)".toList
  | .notText => "stream did not contain valid UTF-8".toList
  | .nulInPath => "file name contained an unexpected NUL byte".toList
  | .other description => description

end ScopedCss.Files
