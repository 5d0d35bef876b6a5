import ScopedCss.Text.Cut

set_option autoImplicit false

/-!
# Patterns with ordered choice

A pattern reads a stretch of text from a given position. Where it can read in several ways, the ways
are ordered by preference: a repetition prefers more characters, an optional part prefers to be
there, and in a sequence the choices of the first part weigh more. The search takes the earliest
position that has any reading, and the preferred reading there.
-/

namespace ScopedCss.Text

/-- Patterns whose captured parts are named by `Name`. -/
inductive Pattern (Name : Type) where
  /-- Just these characters. -/
  | literal (expected : Text)
  /-- One or more characters of a class. -/
  | oneOrMore (accepts : Char → Bool)
  | optional (inner : Pattern Name)
  | sequence (first second : Pattern Name)
  | captured (name : Name) (inner : Pattern Name)

namespace Pattern

/-- A way to read a pattern: what was read, the captured parts in order, and what follows. -/
structure Reading (Name : Type) where
  consumed : Text
  captures : List (Name × Text)
  rest : Text

namespace Reading

variable {Name : Type}

def empty (text : Text) : Reading Name := ⟨[], [], text⟩

/-- A reading followed by one of its rest. -/
def followedBy (first second : Reading Name) : Reading Name :=
  ⟨first.consumed ++ second.consumed, first.captures ++ second.captures, second.rest⟩

def capture (name : Name) (reading : Reading Name) : Reading Name :=
  { reading with captures := (name, reading.consumed) :: reading.captures }

def captured? [DecidableEq Name] (name : Name) (reading : Reading Name) : Option Text :=
  reading.captures.lookup name

end Reading

variable {Name : Type}

/-- The readings of one or more characters of a class, longest first. -/
def stretches (accepts : Char → Bool) : Text → List (Reading Name)
  | [] => []
  | character :: rest =>
      if accepts character then
        (stretches accepts rest).map (Reading.followedBy ⟨[character], [], rest⟩) ++
          [⟨[character], [], rest⟩]
      else []

/-- All readings at the start of a text, in order of preference. -/
def readings : Pattern Name → Text → List (Reading Name)
  | .literal expected, text =>
      match afterStart? expected text with
      | some rest => [⟨expected, [], rest⟩]
      | none => []
  | .oneOrMore accepts, text => stretches accepts text
  | .optional inner, text => inner.readings text ++ [Reading.empty text]
  | .sequence first second, text =>
      (first.readings text).flatMap fun reading =>
        (second.readings reading.rest).map reading.followedBy
  | .captured name inner, text => (inner.readings text).map (Reading.capture name)

/-- The preferred reading at the earliest position that has one, after the text passed over. -/
def search? (pattern : Pattern Name) : Text → Option (Text × Reading Name)
  | [] => (pattern.readings []).head?.map fun reading => ([], reading)
  | character :: rest =>
      match (pattern.readings (character :: rest)).head? with
      | some reading => some ([], reading)
      | none =>
          (search? pattern rest).map fun found => (character :: found.1, found.2)

/-- Successive readings, each search starting where the reading before ended. A reading that
consumes nothing ends the series. -/
def searchAll (pattern : Pattern Name) (text : Text) : List (Reading Name) :=
  match pattern.search? text with
  | none => []
  | some (_, reading) =>
      if reading.rest.length < text.length then
        reading :: searchAll pattern reading.rest
      else []
termination_by text.length

end Pattern

end ScopedCss.Text
