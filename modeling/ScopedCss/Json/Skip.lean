import ScopedCss.Json.Scalar

set_option autoImplicit false

/-!
# Skipping JSON values

`skip` passes over a value of any depth. It goes from token to token and keeps the open brackets in
a list, so that depth costs no recursion. The place says what may come next: after an opening
bracket the closing one may, after a comma it may not.
-/

namespace ScopedCss.Json

inductive Bracket where
  | array
  | object
  deriving DecidableEq

namespace Bracket

def openedBy? : Char → Option Bracket
  | '[' => some .array
  | '\x7b' => some .object
  | _ => none

def closing : Bracket → Char
  | .array => ']'
  | .object => '\x7d'

end Bracket

/-- Where a skipping stands between two tokens. -/
inductive Place where
  /-- A value has to start. -/
  | value
  /-- A bracket has just been opened. -/
  | opened (bracket : Bracket)
  /-- A value has just ended. -/
  | ended
  deriving DecidableEq

/-- Reads the key of an object's member and the colon behind it. -/
def key (care : Care) : Reader Text := fun text => do
  let rest ← mark '"' text
  let (name, rest) ← quoted care rest
  let rest ← mark ':' rest
  return (name, rest)

/-- Reads what has to stand before a value: nothing in an array, a key in an object. -/
def Bracket.beforeValue (bracket : Bracket) (text : Text) : Except Fault Text :=
  match bracket with
  | .array => .ok text
  | .object => do
      let (_, rest) ← key .lenient text
      return rest

theorem key_length_lt {care : Care} {text name rest : Text}
    (read : key care text = .ok (name, rest)) : rest.length < text.length := by
  unfold key at read
  obtain ⟨afterQuote, quoteRead, read⟩ := bind_ok read
  obtain ⟨⟨content, afterContent⟩, contentRead, read⟩ := bind_ok read
  obtain ⟨afterColon, colonRead, read⟩ := bind_ok read
  cases read
  have first := mark_length_lt quoteRead
  have second := quoted_length_lt contentRead
  have third := mark_length_lt colonRead
  omega

theorem Bracket.beforeValue_length_le {bracket : Bracket} {text rest : Text}
    (read : bracket.beforeValue text = .ok rest) : rest.length ≤ text.length := by
  cases bracket with
  | array =>
      cases read
      exact Nat.le_refl _
  | object =>
      obtain ⟨⟨name, after⟩, keyRead, kept⟩ := bind_ok read
      cases kept
      exact Nat.le_of_lt (key_length_lt keyRead)

/-- A value that is being skipped: the place, the open brackets, innermost first, and the rest of
the text. A bracket just opened is not yet among the others. -/
structure Skipping where
  place : Place
  brackets : List Bracket
  text : Text

namespace Skipping

/-- Passes the next token, where the value is not at its end yet. -/
def step (skipping : Skipping) : Except Fault Skipping :=
  match skipping.place, skipping.brackets, skipSpace skipping.text with
  | _, _, [] => .error .unfinished
  | .value, brackets, character :: rest =>
      match Bracket.openedBy? character with
      | some bracket => .ok ⟨.opened bracket, brackets, rest⟩
      | none => do
          let rest ← scalar .lenient (character :: rest)
          return ⟨.ended, brackets, rest⟩
  | .opened bracket, outer, character :: rest =>
      if character = bracket.closing then .ok ⟨.ended, outer, rest⟩
      else do
        let rest ← bracket.beforeValue (character :: rest)
        return ⟨.value, bracket :: outer, rest⟩
  | .ended, [], _ :: _ => .ok skipping
  | .ended, bracket :: outer, character :: rest =>
      if character = bracket.closing then .ok ⟨.ended, outer, rest⟩
      else if character = ',' then do
        let rest ← bracket.beforeValue rest
        return ⟨.value, bracket :: outer, rest⟩
      else .error .malformed

def isDone (skipping : Skipping) : Bool := skipping.place == .ended && skipping.brackets.isEmpty

/-- How much there is left to do. A bracket that was just opened may be followed by a value without
a token in between. -/
def size (skipping : Skipping) : Nat :=
  2 * skipping.text.length + match skipping.place with
    | .opened _ => 1
    | _ => 0

theorem size_step_lt {skipping next : Skipping} (running : skipping.isDone = false)
    (passed : skipping.step = .ok next) : next.size < skipping.size := by
  obtain ⟨place, brackets, text⟩ := skipping
  have skipped := skipSpace_length_le text
  cases start : skipSpace text with
  | nil => simp [step, start] at passed
  | cons character rest =>
      simp only [start, List.length_cons] at skipped
      cases place with
      | value =>
          simp only [step, start] at passed
          split at passed
          · cases passed
            simp only [size]
            omega
          · obtain ⟨after, scalarRead, kept⟩ := bind_ok passed
            cases kept
            have shorter := scalar_length_lt scalarRead
            simp only [List.length_cons] at shorter
            simp only [size]
            omega
      | opened bracket =>
          simp only [step, start] at passed
          split at passed
          · cases passed
            simp only [size]
            omega
          · obtain ⟨after, valueNext, kept⟩ := bind_ok passed
            cases kept
            have shorter := Bracket.beforeValue_length_le valueNext
            simp only [List.length_cons] at shorter
            simp only [size]
            omega
      | ended =>
          cases brackets with
          | nil => simp [isDone] at running
          | cons bracket outer =>
              simp only [step, start] at passed
              split at passed
              · cases passed
                simp only [size]
                omega
              · split at passed
                · obtain ⟨after, valueNext, kept⟩ := bind_ok passed
                  cases kept
                  have shorter := Bracket.beforeValue_length_le valueNext
                  simp only [size]
                  omega
                · cases passed

/-- Goes on to the end of the value and gives the text behind it. -/
def run (skipping : Skipping) : Except Fault Text :=
  if _done : skipping.isDone then .ok skipping.text
  else
    match _passed : skipping.step with
    | .error fault => .error fault
    | .ok next => next.run
termination_by skipping.size
decreasing_by exact size_step_lt (by simpa using _done) _passed

end Skipping

/-- Passes over a value and gives the text behind it. -/
def skip (text : Text) : Except Fault Text := Skipping.run ⟨.value, [], text⟩

private theorem size_le_of_run {skipping : Skipping} {rest : Text}
    (read : skipping.run = .ok rest) : 2 * rest.length ≤ skipping.size := by
  fun_induction Skipping.run skipping with
  | case1 skipping done =>
      cases read
      simp [Skipping.size]
  | case2 skipping running fault refused => cases read
  | case3 skipping running next passed ih =>
      have smaller := Skipping.size_step_lt (by simpa using running) passed
      have later := ih read
      omega

theorem skip_length_le {text rest : Text} (read : skip text = .ok rest) :
    rest.length ≤ text.length := by
  have bounded := size_le_of_run read
  simp only [Skipping.size] at bounded
  omega

end ScopedCss.Json
