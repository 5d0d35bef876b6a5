import ScopedCss.Files.Access
import ScopedCss.Log
import ScopedCss.Settings.Document

set_option autoImplicit false

/-!
# Settings files

`Settings.ofFile` reads a settings file. `Settings.inDirectory` reads the settings file of a directory if
there is one. The paths in a settings file are relative to the working directory, wherever the file
lies.
-/

namespace ScopedCss.Settings

/-- Why settings cannot be had from a file. -/
inductive LoadFailure where
  | unreadable (path : Text) (cause : Files.Failure)
  | invalid (path : Text) (fault : Json.Fault)
  deriving DecidableEq

def LoadFailure.message : LoadFailure → Text
  | .unreadable path _ => "failed to read config ".toList ++ path
  | .invalid path _ => "invalid config ".toList ++ path

def ofFile (files : Files.FileSystem) (path : Text) : Except LoadFailure Settings :=
  match files.readText path with
  | .error cause => .error (.unreadable path cause)
  | .ok text =>
      match ofDocument text with
      | .error fault => .error (.invalid path fault)
      | .ok settings => .ok settings

/-- The path of the settings file of a directory. -/
def pathIn (directory : Text) : Text := Files.Path.join directory fileName

def usingRecord (path : Text) : Log.Record := ⟨.debug, .settings, "using config ".toList ++ path⟩

/-- The settings of a directory and what was logged on the way. Whatever is not a regular file does
not count, and leaves the defaults. -/
def inDirectory (files : Files.FileSystem) (directory : Text) :
    Except LoadFailure Settings × List Log.Record :=
  let path := pathIn directory
  if files.isRegularFile path then (ofFile files path, [usingRecord path])
  else (.ok defaults, [])

end ScopedCss.Settings
