import ScopedCss.Json.Basic

set_option autoImplicit false

/-!
# JSON strings

`quoted` reads a string from behind its opening quote. Read strictly, a string is decoded in full:
escaped surrogates come in pairs that stand for one character. Read leniently, it is only checked
for its grammar, and any four hexadecimal digits will do.
-/

namespace ScopedCss.Json

/-- How a scalar is read: strictly where its value matters, leniently where it is skipped. -/
inductive Care where
  | strict
  | lenient
  deriving DecidableEq

/-- The value of a hexadecimal digit in either letter case. -/
def hexDigit? (character : Char) : Option Nat :=
  if character.isDigit then some (character.toNat - '0'.toNat)
  else if 'a' ≤ character ∧ character ≤ 'f' then some (character.toNat - 'a'.toNat + 10)
  else if 'A' ≤ character ∧ character ≤ 'F' then some (character.toNat - 'A'.toNat + 10)
  else none

/-- Reads the four digits of a UTF-16 code unit. The text counts as too short when fewer than four
bytes of it are left, whatever they are. -/
def codeUnit : Reader Nat
  | first :: second :: third :: fourth :: rest =>
      match hexDigit? first, hexDigit? second, hexDigit? third, hexDigit? fourth with
      | some a, some b, some c, some d => .ok (((a * 16 + b) * 16 + c) * 16 + d, rest)
      | _, _, _, _ => .error .malformed
  | short => .error (if Text.byteLength short < 4 then .unfinished else .malformed)

def isHighSurrogate (unit : Nat) : Bool := 0xD800 ≤ unit && unit ≤ 0xDBFF

def isLowSurrogate (unit : Nat) : Bool := 0xDC00 ≤ unit && unit ≤ 0xDFFF

/-- The character that a surrogate pair stands for. -/
def ofSurrogates (high low : Nat) : Char :=
  Char.ofNat ((high - 0xD800) * 0x400 + (low - 0xDC00) + 0x10000)

/-- Reads the character of a `\u` escape from its digits on. -/
def unicodeEscape (care : Care) : Reader Char := fun text => do
  let (unit, rest) ← codeUnit text
  match care with
  | .lenient => return (Char.ofNat unit, rest)
  | .strict =>
      if isLowSurrogate unit then throw .malformed
      else if isHighSurrogate unit then do
        let rest ← word ['\\', 'u'] rest
        let (low, rest) ← codeUnit rest
        if isLowSurrogate low then return (ofSurrogates unit low, rest) else throw .malformed
      else return (Char.ofNat unit, rest)

/-- The characters written as a backslash and one letter or sign. -/
def shortEscape? : Char → Option Char
  | '"' => some '"'
  | '\\' => some '\\'
  | '/' => some '/'
  | 'b' => some '\x08'
  | 'f' => some '\x0c'
  | 'n' => some '\n'
  | 'r' => some '\r'
  | 't' => some '\t'
  | _ => none

/-- Reads an escape from behind its backslash. -/
def escape (care : Care) : Reader Char
  | [] => .error .unfinished
  | character :: rest =>
      if character = 'u' then unicodeEscape care rest
      else
        match shortEscape? character with
        | some meant => .ok (meant, rest)
        | none => .error .malformed

/-- Reads one character of a string, which may be escaped. Control characters must be. -/
def stringCharacter (care : Care) : Reader Char
  | [] => .error .unfinished
  | character :: rest =>
      if character = '\\' then escape care rest
      else if character.toNat < 0x20 then .error .malformed
      else .ok (character, rest)

theorem codeUnit_length_lt {text rest : Text} {unit : Nat}
    (read : codeUnit text = .ok (unit, rest)) : rest.length < text.length := by
  unfold codeUnit at read
  split at read
  · split at read
    · simp only [Except.ok.injEq, Prod.mk.injEq] at read
      obtain ⟨_, rfl⟩ := read
      simp only [List.length_cons]
      omega
    · cases read
  · cases read

theorem unicodeEscape_length_lt {care : Care} {text rest : Text} {character : Char}
    (read : unicodeEscape care text = .ok (character, rest)) : rest.length < text.length := by
  unfold unicodeEscape at read
  obtain ⟨⟨unit, afterUnit⟩, unitRead, read⟩ := bind_ok read
  have shorter := codeUnit_length_lt unitRead
  cases care with
  | lenient =>
      cases read
      exact shorter
  | strict =>
      dsimp only at read
      split at read
      · cases read
      · split at read
        · obtain ⟨afterMark, marked, read⟩ := bind_ok read
          obtain ⟨⟨low, afterLow⟩, lowRead, read⟩ := bind_ok read
          have passed := word_length marked
          have further := codeUnit_length_lt lowRead
          dsimp only at read
          split at read
          · simp only [pure, Except.pure, Except.ok.injEq, Prod.mk.injEq] at read
            obtain ⟨_, rfl⟩ := read
            omega
          · cases read
        · cases read
          exact shorter

theorem escape_length_lt {care : Care} {text rest : Text} {character : Char}
    (read : escape care text = .ok (character, rest)) : rest.length < text.length := by
  cases text with
  | nil => cases read
  | cons first later =>
      simp only [escape] at read
      split at read
      · have shorter := unicodeEscape_length_lt read
        simp only [List.length_cons]
        omega
      · split at read
        · cases read
          simp
        · cases read

theorem stringCharacter_length_lt {care : Care} {text rest : Text} {character : Char}
    (read : stringCharacter care text = .ok (character, rest)) : rest.length < text.length := by
  cases text with
  | nil => cases read
  | cons first later =>
      simp only [stringCharacter] at read
      split at read
      · have shorter := escape_length_lt read
        simp only [List.length_cons]
        omega
      · split at read
        · cases read
        · cases read
          simp

/-- Reads a string from behind its opening quote, up to and with the closing one. -/
def quoted (care : Care) (text : Text) : Except Fault (Text × Text) :=
  if text.head? = some '"' then .ok ([], text.tail)
  else
    match _read : stringCharacter care text with
    | .error fault => .error fault
    | .ok (character, rest) => do
        let (later, rest) ← quoted care rest
        return (character :: later, rest)
termination_by text.length
decreasing_by exact stringCharacter_length_lt _read

theorem quoted_length_lt {care : Care} {text content rest : Text}
    (read : quoted care text = .ok (content, rest)) : rest.length < text.length := by
  fun_induction quoted care text generalizing content with
  | case1 text closed =>
      cases read
      cases text with
      | nil => simp at closed
      | cons first later => simp
  | case2 text closed fault refused => cases read
  | case3 text closed character afterCharacter characterRead ih =>
      obtain ⟨⟨laterContent, afterLater⟩, laterRead, read⟩ := bind_ok read
      cases read
      have shorter := ih laterRead
      have consumed := stringCharacter_length_lt characterRead
      omega

end ScopedCss.Json
