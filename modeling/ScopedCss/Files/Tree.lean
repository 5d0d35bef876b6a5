import ScopedCss.Files.Path

set_option autoImplicit false

/-!
# File systems

A file system holds a node for each entry of its directories. `FileSystem.put` and
`FileSystem.erase` change one node and leave the others alone (`find?_put`, `find?_erase`).
-/

namespace ScopedCss.Files

inductive Node where
  | file (content : ByteArray)
  | directory

instance : DecidableEq Node
  | .file left, .file right =>
      match ByteArray.instDecidableEq left right with
      | isTrue same => isTrue (congrArg Node.file same)
      | isFalse apart => isFalse fun same => apart (Node.file.inj same)
  | .directory, .directory => isTrue rfl
  | .file _, .directory => isFalse nofun
  | .directory, .file _ => isFalse nofun

/-- Where an entry lies: its name and the names of the directories around it, innermost first. The
top is the empty location. -/
abbrev Location := List Name

structure FileSystem where
  nodes : List (Location × Node)
  workingDirectory : Location
  deriving DecidableEq

namespace FileSystem

/-- A file system with nothing but an empty working directory below the top. -/
def empty (workingDirectory : Name) : FileSystem :=
  ⟨[([workingDirectory], .directory)], [workingDirectory]⟩

/-- The node at a location. -/
def find? (files : FileSystem) (location : Location) : Option Node := files.nodes.lookup location

private def putNode (location : Location) (node : Node) :
    List (Location × Node) → List (Location × Node)
  | [] => [(location, node)]
  | entry :: later =>
      if entry.1 = location then (location, node) :: later else entry :: putNode location node later

/-- Puts a node at a location, in place of the one that may be there. -/
def put (files : FileSystem) (location : Location) (node : Node) : FileSystem :=
  { files with nodes := putNode location node files.nodes }

def erase (files : FileSystem) (location : Location) : FileSystem :=
  { files with nodes := files.nodes.filter fun entry => entry.1 ≠ location }

theorem workingDirectory_put (files : FileSystem) (location : Location) (node : Node) :
    (files.put location node).workingDirectory = files.workingDirectory := rfl

private theorem lookup_putNode (location other : Location) (node : Node)
    (nodes : List (Location × Node)) :
    (putNode location node nodes).lookup other =
      if other = location then some node else nodes.lookup other := by
  induction nodes with
  | nil =>
      by_cases same : other = location
      · simp [putNode, same]
      · have apart : (other == location) = false := beq_eq_false_iff_ne.mpr same
        simp [putNode, List.lookup_cons, apart, same]
  | cons entry later ih =>
      obtain ⟨place, old⟩ := entry
      by_cases here : place = location
      · subst here
        by_cases same : other = place
        · simp [putNode, same]
        · have apart : (other == place) = false := beq_eq_false_iff_ne.mpr same
          simp [putNode, List.lookup_cons, apart, same]
      · by_cases same : other = place
        · subst same
          simp [putNode, here]
        · have apart : (other == place) = false := beq_eq_false_iff_ne.mpr same
          simp [putNode, here, List.lookup_cons, apart, ih]

theorem find?_put (files : FileSystem) (location other : Location) (node : Node) :
    (files.put location node).find? other =
      if other = location then some node else files.find? other :=
  lookup_putNode location other node files.nodes

private theorem putNode_putNode (location : Location) (first second : Node)
    (nodes : List (Location × Node)) :
    putNode location second (putNode location first nodes) = putNode location second nodes := by
  induction nodes with
  | nil => simp [putNode]
  | cons entry later ih =>
      by_cases here : entry.1 = location
      · simp [putNode, here]
      · simp [putNode, here, ih]

theorem put_put (files : FileSystem) (location : Location) (first second : Node) :
    (files.put location first).put location second = files.put location second := by
  simp [put, putNode_putNode]

private theorem lookup_filter_ne (location other : Location) (nodes : List (Location × Node)) :
    (nodes.filter fun entry => entry.1 ≠ location).lookup other =
      if other = location then none else nodes.lookup other := by
  induction nodes with
  | nil => simp
  | cons entry later ih =>
      obtain ⟨place, node⟩ := entry
      by_cases here : place = location
      · subst here
        by_cases same : other = place
        · simpa [same] using ih
        · have apart : (other == place) = false := beq_eq_false_iff_ne.mpr same
          simpa [List.lookup_cons, apart, same] using ih
      · by_cases same : other = place
        · subst same
          simp [here]
        · have apart : (other == place) = false := beq_eq_false_iff_ne.mpr same
          simpa [here, List.lookup_cons, apart] using ih

theorem find?_erase (files : FileSystem) (location other : Location) :
    (files.erase location).find? other =
      if other = location then none else files.find? other :=
  lookup_filter_ne location other files.nodes

end FileSystem

end ScopedCss.Files
