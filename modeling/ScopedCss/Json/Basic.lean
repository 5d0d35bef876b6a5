import ScopedCss.Text.Cut

set_option autoImplicit false

/-!
# Reading JSON

A reader takes the text from a position on and gives what it read together with the rest, or a
fault. The first fault in reading order ends the reading, so every reader looks no further than it
has to.
-/

namespace ScopedCss.Json

/-- Why a document is refused. -/
inductive Fault where
  /-- The text cannot be continued to a JSON document. -/
  | malformed
  /-- The text is JSON so far, but not the data that is asked for. -/
  | wrongData
  /-- The text ends where more is needed. -/
  | unfinished
  deriving DecidableEq

abbrev Reader (α : Type) := Text → Except Fault (α × Text)

/-- The white space of JSON: space, tab, line feed and carriage return. -/
def isSpace (character : Char) : Bool :=
  character == ' ' || character == '\t' || character == '\n' || character == '\r'

def skipSpace (text : Text) : Text := text.dropWhile isSpace

/-- Reads the rest of a word whose characters are fixed. -/
def word : Text → Text → Except Fault Text
  | [], text => .ok text
  | _ :: _, [] => .error .unfinished
  | expected :: later, character :: rest =>
      if character = expected then word later rest else .error .malformed

/-- Reads one fixed character, after white space. -/
def mark (expected : Char) (text : Text) : Except Fault Text := word [expected] (skipSpace text)

/-- A sequence of readers succeeds only if each of them does. -/
theorem bind_ok {α β : Type} {first : Except Fault α} {next : α → Except Fault β} {result : β}
    (accepted : first >>= next = .ok result) :
    ∃ value, first = .ok value ∧ next value = .ok result := by
  cases first with
  | error fault => cases accepted
  | ok value => exact ⟨value, rfl, accepted⟩

theorem skipSpace_length_le (text : Text) : (skipSpace text).length ≤ text.length :=
  (List.dropWhile_sublist _).length_le

theorem word_eq_ok_iff {expected text rest : Text} :
    word expected text = .ok rest ↔ text = expected ++ rest := by
  induction expected generalizing text with
  | nil => simp [word, eq_comm]
  | cons first expected ih =>
      cases text with
      | nil => simp [word]
      | cons character text =>
          by_cases same : character = first
          · simp [word, same, ih]
          · simp [word, same]

theorem word_length {expected text rest : Text} (read : word expected text = .ok rest) :
    text.length = expected.length + rest.length := by
  rw [word_eq_ok_iff.mp read, List.length_append]

theorem mark_length_lt {expected : Char} {text rest : Text} (read : mark expected text = .ok rest) :
    rest.length < text.length := by
  have skipped := skipSpace_length_le text
  have counted := word_length read
  simp only [List.length_cons, List.length_nil] at counted
  omega

end ScopedCss.Json
