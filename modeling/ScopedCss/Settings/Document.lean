import ScopedCss.Json.Skip
import ScopedCss.Settings.Basic

set_option autoImplicit false

/-!
# Settings documents

A settings document is JSON. It is an object whose members give fields by their keys, or an array
that gives the fields in order. What is not given keeps its default. Members with other keys are
skipped, whatever their value is.

The document is read once from left to right, and the first fault decides why it is refused.
-/

namespace ScopedCss.Settings

open Json

/-- Reads the value of a field, which has to be a string. -/
def fieldValue : Reader Text := fun text =>
  match skipSpace text with
  | '"' :: rest => quoted .strict rest
  | '[' :: _ => .error .wrongData
  | '\x7b' :: _ => .error .wrongData
  | start => do
      let _ ← scalar .strict start
      throw .wrongData

/-- Reads what follows the key of a member: a colon and a value. A field that is given already is
refused at its second key. -/
def memberValue (given : Overrides) (name : Text) : Reader Overrides := fun text =>
  match Field.ofKey? name with
  | some field =>
      if (given.get? field).isSome then .error .wrongData
      else do
        let rest ← mark ':' text
        let (value, rest) ← fieldValue rest
        return (given.set field value, rest)
  | none => do
      let rest ← mark ':' text
      let rest ← skip rest
      return (given, rest)

/-- Reads one member of an object. -/
def member (given : Overrides) : Reader Overrides := fun text => do
  let rest ← mark '"' text
  let (name, rest) ← quoted .strict rest
  memberValue given name rest

theorem fieldValue_length_lt {text value rest : Text}
    (read : fieldValue text = .ok (value, rest)) : rest.length < text.length := by
  have skipped := skipSpace_length_le text
  unfold fieldValue at read
  split at read
  · rename_i start
    have shorter := quoted_length_lt read
    simp only [start, List.length_cons] at skipped
    omega
  · cases read
  · cases read
  · obtain ⟨_, _, read⟩ := bind_ok read
    cases read

theorem memberValue_length_lt {given found : Overrides} {name text rest : Text}
    (read : memberValue given name text = .ok (found, rest)) : rest.length < text.length := by
  unfold memberValue at read
  split at read
  · split at read
    · cases read
    · obtain ⟨afterColon, colonRead, read⟩ := bind_ok read
      obtain ⟨⟨value, afterValue⟩, valueRead, read⟩ := bind_ok read
      cases read
      have first := mark_length_lt colonRead
      have second := fieldValue_length_lt valueRead
      omega
  · obtain ⟨afterColon, colonRead, read⟩ := bind_ok read
    obtain ⟨afterValue, valueRead, read⟩ := bind_ok read
    cases read
    have first := mark_length_lt colonRead
    have second := skip_length_le valueRead
    omega

theorem member_length_lt {given found : Overrides} {text rest : Text}
    (read : member given text = .ok (found, rest)) : rest.length < text.length := by
  unfold member at read
  obtain ⟨afterQuote, quoteRead, read⟩ := bind_ok read
  obtain ⟨⟨name, afterName⟩, nameRead, read⟩ := bind_ok read
  have first := mark_length_lt quoteRead
  have second := quoted_length_lt nameRead
  have third := memberValue_length_lt read
  omega

/-- Reads the members of an object that has one more, up to and with the closing brace. -/
def members (given : Overrides) (text : Text) : Except Fault (Overrides × Text) :=
  match _read : member given text with
  | .error fault => .error fault
  | .ok (given, rest) =>
      match _next : skipSpace rest with
      | [] => .error .unfinished
      | character :: after =>
          if character = '\x7d' then .ok (given, after)
          else if character = ',' then members given after
          else .error .malformed
termination_by text.length
decreasing_by
  have shorter := member_length_lt _read
  have skipped := skipSpace_length_le rest
  simp only [_next, List.length_cons] at skipped
  omega

/-- Reads an object from behind its opening brace. -/
def object : Reader Overrides := fun text =>
  match skipSpace text with
  | '\x7d' :: rest => .ok (Overrides.none, rest)
  | start => members Overrides.none start

/-- Reads the comma and the further elements of an array that gives the listed fields next, up to
and with the closing bracket. -/
def laterElements : List Field → Overrides → Reader Overrides
  | [], given, text => do
      let rest ← mark ']' text
      return (given, rest)
  | field :: later, given, text =>
      match skipSpace text with
      | [] => .error .unfinished
      | character :: rest =>
          if character = ']' then .ok (given, rest)
          else if character = ',' then do
            let (value, rest) ← fieldValue rest
            laterElements later (given.set field value) rest
          else .error .malformed

/-- Reads an array from behind its opening bracket. It gives at most as many values as there are
fields. -/
def array : Reader Overrides := fun text =>
  match skipSpace text with
  | ']' :: rest => .ok (Overrides.none, rest)
  | start => do
      let (value, rest) ← fieldValue start
      laterElements [.output, .wrapper] (Overrides.none.set .input value) rest

/-- Reads the fields that a document gives. -/
def overrides : Reader Overrides := fun text =>
  match skipSpace text with
  | '\x7b' :: rest => object rest
  | '[' :: rest => array rest
  | start => do
      let _ ← scalar .strict start
      throw .wrongData

/-- The settings of a document. Behind the value, only white space may follow. -/
def ofDocument (text : Text) : Except Fault Settings := do
  let (given, rest) ← overrides text
  if (skipSpace rest).isEmpty then return given.apply else throw .malformed

end ScopedCss.Settings
