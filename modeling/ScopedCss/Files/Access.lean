import ScopedCss.Files.Tree

set_option autoImplicit false

/-!
# Access to files

Every operation first walks to the directory that the last step of its path starts from, and fails
at the first step that cannot be taken. What the last step means then depends on the operation.
-/

namespace ScopedCss.Files.FileSystem

/-- The number of bytes that a name may have. -/
def nameLimit : Nat := 255

/-- The node at a location whose directory is known to be one. -/
def lookup (files : FileSystem) : Location → Except Failure Node
  | [] => .ok .directory
  | name :: directory =>
      if nameLimit < Text.byteLength name then .error .nameTooLong
      else
        match files.find? (name :: directory) with
        | some node => .ok node
        | none => .error .notFound

/-- Takes a step from one directory to another. The top is above itself. -/
def enter (files : FileSystem) (directory : Location) : Step → Except Failure Location
  | .stay => .ok directory
  | .up => .ok directory.tail
  | .down name =>
      match files.lookup (name :: directory) with
      | .ok .directory => .ok (name :: directory)
      | .ok (.file _) => .error .notADirectory
      | .error failure => .error failure

def walk (files : FileSystem) (directory : Location) : List Step → Except Failure Location
  | [] => .ok directory
  | step :: later =>
      match files.enter directory step with
      | .ok next => files.walk next later
      | .error failure => .error failure

/-- What the last step of a path is about. -/
inductive Target where
  /-- A directory, which the walk has reached. -/
  | reached
  /-- An entry of the directory that the walk has reached. -/
  | entry (location : Location)
  deriving DecidableEq

def target (files : FileSystem) (path : Path) : Except Failure Target :=
  match files.walk (if path.absolute then [] else files.workingDirectory) path.steps.dropLast with
  | .error failure => .error failure
  | .ok directory =>
      match path.steps.getLast? with
      | some (.down name) => .ok (.entry (name :: directory))
      | _ => .ok .reached

/-- The node that a path leads to. -/
def nodeAt (files : FileSystem) (path : Path) : Except Failure Node :=
  match files.target path with
  | .error failure => .error failure
  | .ok .reached => .ok .directory
  | .ok (.entry location) =>
      match files.lookup location with
      | .ok (.file content) =>
          if path.endsInSlash then .error .notADirectory else .ok (.file content)
      | other => other

def isRegularFile (files : FileSystem) (path : Text) : Bool :=
  match Path.ofText path >>= files.nodeAt with
  | .ok (.file _) => true
  | _ => false

/-- The content of a file. -/
def read (files : FileSystem) (path : Text) : Except Failure ByteArray :=
  match Path.ofText path >>= files.nodeAt with
  | .ok (.file content) => .ok content
  | .ok .directory => .error .isADirectory
  | .error failure => .error failure

/-- The text that a content is the UTF-8 form of. -/
def textOf (content : ByteArray) : Except Failure Text :=
  match String.fromUTF8? content with
  | some text => .ok text.toList
  | none => .error .notText

def bytesOf (text : Text) : ByteArray := (String.ofList text).toUTF8

/-- A text written as bytes reads back. -/
theorem textOf_bytesOf (text : Text) : textOf (bytesOf text) = .ok text := by
  have valid := (String.ofList text).isValidUTF8
  have decoded : String.fromUTF8? (bytesOf text) = some (String.ofList text) := by
    unfold bytesOf String.fromUTF8?
    exact dif_pos valid
  rw [textOf, decoded]
  exact congrArg Except.ok String.toList_ofList

def readText (files : FileSystem) (path : Text) : Except Failure Text :=
  files.read path >>= textOf

/-- The location of the file that writing to a path replaces or creates. Only an existing directory
gets a new file, and a path that asks for a directory gets none. -/
def writable (files : FileSystem) (path : Path) : Except Failure Location :=
  match files.target path with
  | .error failure => .error failure
  | .ok .reached => .error .isADirectory
  | .ok (.entry location) =>
      if path.endsInSlash then .error .isADirectory
      else
        match files.lookup location with
        | .ok .directory => .error .isADirectory
        | .ok (.file _) => .ok location
        | .error .notFound => .ok location
        | .error failure => .error failure

def outputLocation (files : FileSystem) (path : Text) : Except Failure Location :=
  Path.ofText path >>= files.writable

/-- Replaces or creates a file. -/
def write (files : FileSystem) (path : Text) (content : ByteArray) : Except Failure FileSystem := do
  let location ← files.outputLocation path
  return files.put location (.file content)

/-- Removes a file. -/
def remove (files : FileSystem) (path : Text) : Except Failure FileSystem := do
  let path ← Path.ofText path
  match ← files.target path with
  | .reached => throw .isADirectory
  | .entry location =>
      match ← files.lookup location with
      | .directory => throw .isADirectory
      | .file _ => if path.endsInSlash then throw .notADirectory else return files.erase location

/-- Creates one directory. -/
def makeDirectory (files : FileSystem) (path : Path) : Except Failure FileSystem :=
  match files.target path with
  | .error failure => .error failure
  | .ok .reached => .error .alreadyExists
  | .ok (.entry location) =>
      match files.lookup location with
      | .ok _ => .error .alreadyExists
      | .error .notFound => .ok (files.put location .directory)
      | .error failure => .error failure

/-- A failure to create a directory does not matter where there is one. -/
def acceptDirectory (files : FileSystem) (path : Path) (failure : Failure) : Except Failure Unit :=
  match files.nodeAt path with
  | .ok .directory => .ok ()
  | _ => .error failure

/-- Creates a directory and the missing ones above it. Directories that were created before a
failure stay. -/
def ensureDirectoryAt (files : FileSystem) (path : Path) : Except Failure Unit × FileSystem :=
  if _top : path.steps = [] then (.ok (), files)
  else
    match files.makeDirectory path with
    | .ok made => (.ok (), made)
    | .error .notFound =>
        match ensureDirectoryAt files path.parent with
        | (.error failure, partly) => (.error failure, partly)
        | (.ok (), prepared) =>
            match prepared.makeDirectory path with
            | .ok made => (.ok (), made)
            | .error failure => (prepared.acceptDirectory path failure, prepared)
    | .error failure => (files.acceptDirectory path failure, files)
termination_by path.steps.length
decreasing_by exact Path.parent_steps_length_lt _top

def ensureDirectory (files : FileSystem) (path : Text) : Except Failure Unit × FileSystem :=
  if path = [] then (.ok (), files)
  else
    match Path.ofText path with
    | .error failure => (.error failure, files)
    | .ok path => files.ensureDirectoryAt path

end ScopedCss.Files.FileSystem
