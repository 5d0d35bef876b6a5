import ScopedCss.Json.Number

set_option autoImplicit false

/-!
# JSON scalars

`scalar` reads a value that is neither an array nor an object, and gives the rest alone. Its value
is of no interest to any caller: a scalar is read either to be skipped or to be refused.
-/

namespace ScopedCss.Json

/-- Reads a number with its sign already read. Strictly read, it must be finite. -/
def numberScalar (care : Care) (text : Text) : Except Fault Text := do
  let (found, rest) ← number care text
  if care = .strict ∧ found.isFinite = false then throw .malformed else return rest

/-- Reads a keyword, a number or a string. -/
def scalar (care : Care) : Text → Except Fault Text
  | [] => .error .unfinished
  | 'n' :: rest => word "ull".toList rest
  | 't' :: rest => word "rue".toList rest
  | 'f' :: rest => word "alse".toList rest
  | '"' :: rest => do
      let (_, rest) ← quoted care rest
      return rest
  | '-' :: rest => numberScalar care rest
  | character :: rest =>
      if character.isDigit then numberScalar care (character :: rest) else .error .malformed

theorem numberScalar_length_lt {care : Care} {text rest : Text}
    (read : numberScalar care text = .ok rest) : rest.length < text.length := by
  unfold numberScalar at read
  obtain ⟨⟨found, after⟩, numberRead, kept⟩ := bind_ok read
  dsimp only at kept
  split at kept
  · cases kept
  · cases kept
    exact number_length_lt numberRead

theorem scalar_length_lt {care : Care} {text rest : Text} (read : scalar care text = .ok rest) :
    rest.length < text.length := by
  unfold scalar at read
  split at read
  · cases read
  · have passed := word_length read
    simp only [List.length_cons]
    omega
  · have passed := word_length read
    simp only [List.length_cons]
    omega
  · have passed := word_length read
    simp only [List.length_cons]
    omega
  · obtain ⟨⟨content, after⟩, quotedRead, kept⟩ := bind_ok read
    cases kept
    have shorter := quoted_length_lt quotedRead
    simp only [List.length_cons]
    omega
  · have shorter := numberScalar_length_lt read
    simp only [List.length_cons]
    omega
  · split at read
    · exact numberScalar_length_lt read
    · cases read

end ScopedCss.Json
