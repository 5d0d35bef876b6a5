import ScopedCss.Json.Quoted

set_option autoImplicit false

/-!
# JSON numbers

`number` reads a number without its sign. `Number.isFinite` says whether the number has a value as a
double; where the value matters, a number without one is refused.
-/

namespace ScopedCss.Json

/-- An unsigned number as it is written. -/
structure Number where
  whole : Text
  fraction : Text
  exponent : Int
  deriving DecidableEq

namespace Number

def digitValue (digit : Char) : Nat := digit.toNat - '0'.toNat

def ofDigits (digits : Text) : Nat :=
  digits.foldl (fun value digit => value * 10 + digitValue digit) 0

/-- Appends digits to a significand as long as it fits 64 bits, and counts the digits left over. -/
def extend (significand : Nat) : Text → Nat × Nat
  | [] => (significand, 0)
  | digit :: later =>
      let longer := significand * 10 + digitValue digit
      if longer < Nat.pow 2 64 then extend longer later else (significand, later.length + 1)

/-- The number as a significand of at most 64 bits and a power of ten. Digits beyond that size count
for the power where they stand before the point, and for nothing after it. -/
def scaled (number : Number) : Nat × Int :=
  let (whole, dropped) := extend 0 number.whole
  let (significand, unused) := extend whole number.fraction
  (significand, dropped - (number.fraction.length - unused : Nat) + number.exponent)

/-- The nearest number with 53 significant bits. A tie goes to the even neighbour. -/
def roundToDouble (value : Nat) : Nat :=
  let shift := value.log2 + 1 - 53
  let unit := Nat.pow 2 shift
  let low := value / unit
  let excess := value % unit
  if excess * 2 < unit ∨ (excess * 2 = unit ∧ low % 2 = 0) then low * unit else (low + 1) * unit

/-- Whether the significand times the power of ten, each rounded to a double, is a finite double.
From halfway between the greatest double and the next power of two on, the product is not. -/
def isFinite (number : Number) : Bool :=
  let (significand, power) := number.scaled
  if power < 0 then true
  else if power ≤ 308 then
    roundToDouble significand * roundToDouble (Nat.pow 10 power.toNat) <
      Nat.pow 2 1024 - Nat.pow 2 970
  else significand == 0

end Number

/-- What a number that breaks off counts as. Where its value matters, it is unfinished at the end of
the text. -/
def brokenNumber (care : Care) (text : Text) : Fault :=
  if care = .strict ∧ text = [] then .unfinished else .malformed

/-- Reads one or more digits. -/
def digits (care : Care) : Reader Text := fun text =>
  if (text.takeWhile Char.isDigit).isEmpty then .error (brokenNumber care text)
  else .ok (text.takeWhile Char.isDigit, text.dropWhile Char.isDigit)

/-- Reads the digits before the point. A leading zero stands alone. -/
def wholeDigits (care : Care) : Reader Text := fun text => do
  let (whole, rest) ← digits care text
  if whole.head? = some '0' ∧ whole.length ≠ 1 then throw .malformed else return (whole, rest)

/-- Reads the point and the digits behind it, if there is a point. -/
def fraction (care : Care) : Reader Text
  | '.' :: rest => digits care rest
  | text => .ok ([], text)

/-- Reads the sign of an exponent, which is positive by default. -/
def exponentSign : Text → Int × Text
  | '+' :: rest => (1, rest)
  | '-' :: rest => (-1, rest)
  | text => (1, text)

/-- Reads the exponent, if there is one. -/
def exponent (care : Care) : Reader Int := fun text =>
  if text.head? = some 'e' ∨ text.head? = some 'E' then do
    let signed := exponentSign text.tail
    let (power, rest) ← digits care signed.2
    return (signed.1 * Number.ofDigits power, rest)
  else .ok (0, text)

/-- Reads a number from behind its sign. It ends where its grammar ends. -/
def number (care : Care) : Reader Number := fun text => do
  let (whole, rest) ← wholeDigits care text
  let (fraction, rest) ← fraction care rest
  let (exponent, rest) ← exponent care rest
  return (⟨whole, fraction, exponent⟩, rest)

theorem digits_length_lt {care : Care} {text found rest : Text}
    (read : digits care text = .ok (found, rest)) : rest.length < text.length := by
  unfold digits at read
  split at read
  · cases read
  · rename_i some_digit
    simp only [Except.ok.injEq, Prod.mk.injEq] at read
    obtain ⟨rfl, rfl⟩ := read
    have all := congrArg List.length (List.takeWhile_append_dropWhile (p := Char.isDigit) (l := text))
    have positive : 0 < (text.takeWhile Char.isDigit).length := by
      rw [List.length_pos_iff]
      simpa using some_digit
    simp only [List.length_append] at all
    omega

theorem wholeDigits_length_lt {care : Care} {text found rest : Text}
    (read : wholeDigits care text = .ok (found, rest)) : rest.length < text.length := by
  unfold wholeDigits at read
  obtain ⟨⟨whole, after⟩, digitsRead, kept⟩ := bind_ok read
  dsimp only at kept
  split at kept
  · cases kept
  · cases kept
    exact digits_length_lt digitsRead

theorem fraction_length_le {care : Care} {text found rest : Text}
    (read : fraction care text = .ok (found, rest)) : rest.length ≤ text.length := by
  unfold fraction at read
  split at read
  · have shorter := digits_length_lt read
    simp only [List.length_cons]
    omega
  · cases read
    exact Nat.le_refl _

theorem exponentSign_length_le (text : Text) : (exponentSign text).2.length ≤ text.length := by
  unfold exponentSign
  split <;> simp

theorem exponent_length_le {care : Care} {text rest : Text} {power : Int}
    (read : exponent care text = .ok (power, rest)) : rest.length ≤ text.length := by
  unfold exponent at read
  split at read
  · obtain ⟨⟨found, after⟩, digitsRead, kept⟩ := bind_ok read
    cases kept
    have shorter := digits_length_lt digitsRead
    have signed := exponentSign_length_le text.tail
    have behind : text.tail.length ≤ text.length := by simp
    omega
  · cases read
    exact Nat.le_refl _

theorem number_length_lt {care : Care} {text rest : Text} {found : Number}
    (read : number care text = .ok (found, rest)) : rest.length < text.length := by
  unfold number at read
  obtain ⟨⟨whole, afterWhole⟩, wholeRead, read⟩ := bind_ok read
  obtain ⟨⟨part, afterPart⟩, partRead, read⟩ := bind_ok read
  obtain ⟨⟨power, afterPower⟩, powerRead, read⟩ := bind_ok read
  cases read
  have first := wholeDigits_length_lt wholeRead
  have second := fraction_length_le partRead
  have third := exponent_length_le powerRead
  omega

end ScopedCss.Json
