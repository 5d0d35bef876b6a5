import ScopedCss.Files.Tree

set_option autoImplicit false

/-!
# Listings

The listing of a file system names everything below its working directory.
-/

namespace ScopedCss.Files.FileSystem

/-- The names from the working directory down to a location below it, innermost first. -/
def below? (files : FileSystem) (location : Location) : Option (List Name) :=
  let depth := location.length - files.workingDirectory.length
  if files.workingDirectory = location.drop depth ∧ 0 < depth then some (location.take depth)
  else none

/-- The path of an entry as it is listed. A directory has a slash at its end. -/
def listedPath (names : List Name) : Node → Text
  | .directory => List.intercalate ['/'] names.reverse ++ ['/']
  | .file _ => List.intercalate ['/'] names.reverse

/-- The order of texts by their characters, in which a text comes before its continuations. -/
def notAfter : Text → Text → Bool
  | [], _ => true
  | _ :: _, [] => false
  | left :: lefts, right :: rights =>
      left.toNat < right.toNat || (left.toNat == right.toNat && notAfter lefts rights)

/-- The paths of all entries below the working directory, in the order of their characters. -/
def listing (files : FileSystem) : List Text :=
  let paths := files.nodes.filterMap fun (location, node) =>
    (files.below? location).map fun names => listedPath names node
  paths.mergeSort notAfter

end ScopedCss.Files.FileSystem
