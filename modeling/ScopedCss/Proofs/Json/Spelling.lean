import ScopedCss.Json.Quoted

set_option autoImplicit false

/-!
# How JSON strings are spelled

A character may stand in a string as it is, as a short escape, or as its UTF-16 code units in
hexadecimal. No character has a lone surrogate among its spellings. Where a string is only skipped,
any code unit may be escaped by itself.

`quoted` reads the spellings and nothing else (`quoted_eq_ok_iff`).
-/

namespace ScopedCss.Json

/-! ## The spellings -/

/-- The letters of the short escapes, each with the character that it stands for. -/
def shortEscapes : List (Char × Char) :=
  [('"', '"'), ('\\', '\\'), ('/', '/'), ('b', '\x08'), ('f', '\x0c'), ('n', '\n'), ('r', '\r'),
    ('t', '\t')]

def IsHexDigit (digit : Char) (value : Nat) : Prop :=
  "0123456789abcdef".toList[value]? = some digit ∨ "0123456789ABCDEF".toList[value]? = some digit

inductive UnitDigits : Nat → Text → Prop where
  | four {first second third fourth : Char} {a b c d : Nat}
      (isFirst : IsHexDigit first a) (isSecond : IsHexDigit second b)
      (isThird : IsHexDigit third c) (isFourth : IsHexDigit fourth d) :
      UnitDigits (((a * 16 + b) * 16 + c) * 16 + d) [first, second, third, fourth]

/-- The UTF-16 code units of a character. -/
def utf16 (character : Char) : List Nat :=
  if character.toNat < 0x10000 then [character.toNat]
  else
    [0xD800 + (character.toNat - 0x10000) / 0x400, 0xDC00 + (character.toNat - 0x10000) % 0x400]

inductive EscapedUnits : List Nat → Text → Prop where
  | nil : EscapedUnits [] []
  | cons {unit : Nat} {units : List Nat} {digits later : Text}
      (isUnit : UnitDigits unit digits) (areUnits : EscapedUnits units later) :
      EscapedUnits (unit :: units) ('\\' :: 'u' :: (digits ++ later))

/-- The ways to write one character of a string. -/
inductive CharacterSpelling : Care → Char → Text → Prop where
  | plain {care : Care} {character : Char} (notQuote : character ≠ '"')
      (notEscape : character ≠ '\\') (notControl : 0x20 ≤ character.toNat) :
      CharacterSpelling care character [character]
  | short {care : Care} {letter character : Char} (listed : (letter, character) ∈ shortEscapes) :
      CharacterSpelling care character ['\\', letter]
  | units {character : Char} {source : Text} (escaped : EscapedUnits (utf16 character) source) :
      CharacterSpelling .strict character source
  | anyUnit {unit : Nat} {digits : Text} (isUnit : UnitDigits unit digits) :
      CharacterSpelling .lenient (Char.ofNat unit) ('\\' :: 'u' :: digits)

/-- The ways to write a string between its quotes. -/
inductive Spelling (care : Care) : Text → Text → Prop where
  | nil : Spelling care [] []
  | cons {character : Char} {content first later source : Text}
      (spelled : CharacterSpelling care character first) (spelledLater : Spelling care content later)
      (joined : source = first ++ later) : Spelling care (character :: content) source

/-! ## Code units -/

theorem hexDigit?_eq_some_iff {digit : Char} {value : Nat} :
    hexDigit? digit = some value ↔ IsHexDigit digit value := by
  constructor
  · intro read
    have ascii : digit.toNat < 128 := by
      simp only [hexDigit?, Char.isDigit, Char.le_def, UInt32.le_iff_toNat_le] at read
      split at read
      · rename_i decimal
        simp only [Bool.and_eq_true, decide_eq_true_eq] at decimal
        have upper : digit.toNat ≤ 57 := decimal.2
        omega
      · split at read
        · rename_i lower
          have upper : digit.toNat ≤ 102 := lower.2
          omega
        · split at read
          · rename_i capital
            have upper : digit.toNat ≤ 70 := capital.2
            omega
          · cases read
    have all : ∀ code < 128, ∀ value ∈ hexDigit? (Char.ofNat code),
        "0123456789abcdef".toList[value]? = some (Char.ofNat code) ∨
          "0123456789ABCDEF".toList[value]? = some (Char.ofNat code) := by decide +kernel
    have here := all digit.toNat ascii value (by rw [Char.ofNat_toNat]; exact read)
    rwa [Char.ofNat_toNat] at here
  · intro isDigit
    have lower : ∀ value < 16, "0123456789abcdef".toList[value]?.bind hexDigit? = some value := by
      decide +kernel
    have capital : ∀ value < 16, "0123456789ABCDEF".toList[value]?.bind hexDigit? = some value := by
      decide +kernel
    rcases isDigit with listed | listed
    · have here := lower value (List.getElem?_eq_some_iff.mp listed).1
      rwa [listed] at here
    · have here := capital value (List.getElem?_eq_some_iff.mp listed).1
      rwa [listed] at here

theorem IsHexDigit.lt {digit : Char} {value : Nat} (isDigit : IsHexDigit digit value) :
    value < 16 := by
  rcases isDigit with listed | listed
  · exact (List.getElem?_eq_some_iff.mp listed).1
  · exact (List.getElem?_eq_some_iff.mp listed).1

theorem UnitDigits.lt {unit : Nat} {digits : Text} (isUnit : UnitDigits unit digits) :
    unit < 0x10000 := by
  cases isUnit with
  | four isFirst isSecond isThird isFourth =>
      have first := isFirst.lt
      have second := isSecond.lt
      have third := isThird.lt
      have fourth := isFourth.lt
      omega

theorem codeUnit_eq_ok_iff {text rest : Text} {unit : Nat} :
    codeUnit text = .ok (unit, rest) ↔ ∃ digits, UnitDigits unit digits ∧ text = digits ++ rest := by
  constructor
  · intro read
    unfold codeUnit at read
    split at read
    · split at read
      · rename_i first second third fourth later a b c d isFirst isSecond isThird isFourth
        cases read
        exact ⟨_, .four (hexDigit?_eq_some_iff.mp isFirst) (hexDigit?_eq_some_iff.mp isSecond)
          (hexDigit?_eq_some_iff.mp isThird) (hexDigit?_eq_some_iff.mp isFourth), rfl⟩
      · cases read
    · cases read
  · rintro ⟨digits, isUnit, rfl⟩
    cases isUnit with
    | four isFirst isSecond isThird isFourth =>
        simp [codeUnit, hexDigit?_eq_some_iff.mpr isFirst, hexDigit?_eq_some_iff.mpr isSecond,
          hexDigit?_eq_some_iff.mpr isThird, hexDigit?_eq_some_iff.mpr isFourth]

/-! ## Surrogates -/

private theorem toNat_ofNat_of_valid {code : Nat} (valid : code.isValidChar) :
    (Char.ofNat code).toNat = code := by
  rw [Char.ofNat, dif_pos valid]
  rfl

theorem isLowSurrogate_of_isHighSurrogate {unit : Nat} (isHigh : isHighSurrogate unit = true) :
    isLowSurrogate unit = false := by
  simp only [isHighSurrogate, isLowSurrogate, Bool.and_eq_true, decide_eq_true_eq,
    Bool.and_eq_false_iff, decide_eq_false_iff_not] at isHigh ⊢
  omega

theorem utf16_ofNat {unit : Nat} (small : unit < 0x10000) (notHigh : isHighSurrogate unit = false)
    (notLow : isLowSurrogate unit = false) : utf16 (Char.ofNat unit) = [unit] := by
  have valid : unit.isValidChar := by
    simp only [isHighSurrogate, isLowSurrogate, Bool.and_eq_false_iff, decide_eq_false_iff_not]
      at notHigh notLow
    unfold Nat.isValidChar
    omega
  rw [utf16, toNat_ofNat_of_valid valid, if_pos small]

theorem utf16_ofSurrogates {high low : Nat} (isHigh : isHighSurrogate high = true)
    (isLow : isLowSurrogate low = true) : utf16 (ofSurrogates high low) = [high, low] := by
  simp only [isHighSurrogate, isLowSurrogate, Bool.and_eq_true, decide_eq_true_eq] at isHigh isLow
  have valid : ((high - 0xD800) * 0x400 + (low - 0xDC00) + 0x10000).isValidChar := by
    unfold Nat.isValidChar
    omega
  have code : (ofSurrogates high low).toNat =
      (high - 0xD800) * 0x400 + (low - 0xDC00) + 0x10000 := toNat_ofNat_of_valid valid
  have highUnit : 0xD800 + ((high - 0xD800) * 0x400 + (low - 0xDC00) + 0x10000 - 0x10000) / 0x400 =
      high := by omega
  have lowUnit : 0xDC00 + ((high - 0xD800) * 0x400 + (low - 0xDC00) + 0x10000 - 0x10000) % 0x400 =
      low := by omega
  rw [utf16, code, if_neg (by omega), highUnit, lowUnit]

/-- A character is one code unit that is no surrogate, or a pair of surrogates. -/
theorem utf16_cases (character : Char) :
    (∃ unit, utf16 character = [unit] ∧ isHighSurrogate unit = false ∧
      isLowSurrogate unit = false ∧ Char.ofNat unit = character) ∨
    ∃ high low, utf16 character = [high, low] ∧ isHighSurrogate high = true ∧
      isLowSurrogate low = true ∧ ofSurrogates high low = character := by
  have valid : character.toNat < 0xD800 ∨ 0xDFFF < character.toNat ∧ character.toNat < 0x110000 :=
    character.valid
  by_cases small : character.toNat < 0x10000
  · refine .inl ⟨character.toNat, if_pos small, ?_, ?_, Char.ofNat_toNat character⟩
    · simp only [isHighSurrogate, Bool.and_eq_false_iff, decide_eq_false_iff_not]
      omega
    · simp only [isLowSurrogate, Bool.and_eq_false_iff, decide_eq_false_iff_not]
      omega
  · refine .inr ⟨_, _, if_neg small, ?_, ?_, ?_⟩
    · simp only [isHighSurrogate, Bool.and_eq_true, decide_eq_true_eq]
      omega
    · simp only [isLowSurrogate, Bool.and_eq_true, decide_eq_true_eq]
      omega
    · have code : (0xD800 + (character.toNat - 0x10000) / 0x400 - 0xD800) * 0x400 +
          (0xDC00 + (character.toNat - 0x10000) % 0x400 - 0xDC00) + 0x10000 = character.toNat := by
        omega
      rw [ofSurrogates, code, Char.ofNat_toNat]

/-! ## Reading -/

theorem unicodeEscape_lenient_eq_ok_iff {text rest : Text} {character : Char} :
    unicodeEscape .lenient text = .ok (character, rest) ↔
      ∃ unit digits, UnitDigits unit digits ∧ character = Char.ofNat unit ∧
        text = digits ++ rest := by
  constructor
  · intro read
    obtain ⟨⟨unit, after⟩, unitRead, read⟩ := bind_ok read
    cases read
    obtain ⟨digits, isUnit, rfl⟩ := codeUnit_eq_ok_iff.mp unitRead
    exact ⟨unit, digits, isUnit, rfl, rfl⟩
  · rintro ⟨unit, digits, isUnit, rfl, rfl⟩
    simp [unicodeEscape, codeUnit_eq_ok_iff.mpr ⟨digits, isUnit, rfl⟩, bind, Except.bind, pure,
      Except.pure]

theorem escapedUnits_singleton_iff {unit : Nat} {source : Text} :
    EscapedUnits [unit] ('\\' :: 'u' :: source) ↔ UnitDigits unit source := by
  constructor
  · intro escaped
    cases escaped with
    | cons isUnit none =>
        cases none
        rwa [List.append_nil]
  · intro isUnit
    have escaped := EscapedUnits.cons isUnit .nil
    rwa [List.append_nil] at escaped

theorem escapedUnits_pair_iff {high low : Nat} {source : Text} :
    EscapedUnits [high, low] ('\\' :: 'u' :: source) ↔
      ∃ highDigits lowDigits, UnitDigits high highDigits ∧ UnitDigits low lowDigits ∧
        source = highDigits ++ '\\' :: 'u' :: lowDigits := by
  constructor
  · intro escaped
    cases escaped with
    | cons isHighUnit escapedLow =>
        cases escapedLow with
        | cons isLowUnit none =>
            cases none
            exact ⟨_, _, isHighUnit, isLowUnit, by rw [List.append_nil]⟩
  · rintro ⟨highDigits, lowDigits, isHighUnit, isLowUnit, rfl⟩
    exact .cons isHighUnit (escapedUnits_singleton_iff.mpr isLowUnit)

theorem unicodeEscape_strict_eq_ok_iff {text rest : Text} {character : Char} :
    unicodeEscape .strict text = .ok (character, rest) ↔
      ∃ source, EscapedUnits (utf16 character) ('\\' :: 'u' :: source) ∧ text = source ++ rest := by
  constructor
  · intro read
    unfold unicodeEscape at read
    obtain ⟨⟨unit, afterUnit⟩, unitRead, decoded⟩ := bind_ok read
    obtain ⟨digits, isUnit, rfl⟩ := codeUnit_eq_ok_iff.mp unitRead
    dsimp only at decoded
    split at decoded
    · cases decoded
    · rename_i notLow
      split at decoded
      · rename_i isHigh
        obtain ⟨afterMark, marked, paired⟩ := bind_ok decoded
        obtain ⟨⟨low, afterLow⟩, lowRead, kept⟩ := bind_ok paired
        obtain ⟨lowDigits, isLowUnit, rfl⟩ := codeUnit_eq_ok_iff.mp lowRead
        have joined := word_eq_ok_iff.mp marked
        dsimp only at kept
        split at kept
        · rename_i isLow
          simp only [pure, Except.pure, Except.ok.injEq, Prod.mk.injEq] at kept
          obtain ⟨rfl, rfl⟩ := kept
          rw [utf16_ofSurrogates isHigh isLow]
          exact ⟨_, escapedUnits_pair_iff.mpr ⟨digits, lowDigits, isUnit, isLowUnit, rfl⟩,
            by simp [joined]⟩
        · cases kept
      · rename_i notHigh
        cases decoded
        rw [utf16_ofNat isUnit.lt (by simpa using notHigh) (by simpa using notLow)]
        exact ⟨digits, escapedUnits_singleton_iff.mpr isUnit, rfl⟩
  · rintro ⟨source, escaped, rfl⟩
    rcases utf16_cases character with
      ⟨unit, units, notHigh, notLow, meant⟩ | ⟨high, low, units, isHigh, isLow, meant⟩
    · rw [units, escapedUnits_singleton_iff] at escaped
      simp [unicodeEscape, codeUnit_eq_ok_iff.mpr ⟨source, escaped, rfl⟩, notHigh, notLow, meant,
        bind, Except.bind, pure, Except.pure]
    · rw [units, escapedUnits_pair_iff] at escaped
      obtain ⟨highDigits, lowDigits, isHighUnit, isLowUnit, rfl⟩ := escaped
      have readHigh := codeUnit_eq_ok_iff.mpr ⟨highDigits, isHighUnit,
        Eq.refl (highDigits ++ '\\' :: 'u' :: (lowDigits ++ rest))⟩
      have readLow := codeUnit_eq_ok_iff.mpr ⟨lowDigits, isLowUnit, Eq.refl (lowDigits ++ rest)⟩
      simp [unicodeEscape, readHigh, readLow, isHigh, isLow, isLowSurrogate_of_isHighSurrogate isHigh,
        meant, word, bind, Except.bind, pure, Except.pure]

theorem EscapedUnits.exists_eq_cons {character : Char} {source : Text}
    (escaped : EscapedUnits (utf16 character) source) :
    ∃ digits, source = '\\' :: 'u' :: digits := by
  rcases utf16_cases character with ⟨_, units, _⟩ | ⟨_, _, units, _⟩
  · rw [units] at escaped
    cases escaped
    exact ⟨_, rfl⟩
  · rw [units] at escaped
    cases escaped
    exact ⟨_, rfl⟩

theorem shortEscape?_eq_some_iff {letter character : Char} :
    shortEscape? letter = some character ↔ (letter, character) ∈ shortEscapes := by
  constructor
  · intro found
    unfold shortEscape? at found
    split at found <;> first | (cases found; decide) | cases found
  · intro listed
    have all : ∀ pair ∈ shortEscapes, shortEscape? pair.1 = some pair.2 := by decide
    exact all _ listed

theorem stringCharacter_sound {care : Care} {text rest : Text} {character : Char}
    (notClosed : text.head? ≠ some '"') (read : stringCharacter care text = .ok (character, rest)) :
    ∃ source, CharacterSpelling care character source ∧ text = source ++ rest := by
  cases text with
  | nil => cases read
  | cons first later =>
      simp only [stringCharacter] at read
      split at read
      · rename_i isEscape
        subst isEscape
        cases later with
        | nil => cases read
        | cons letter later =>
            simp only [escape] at read
            split at read
            · rename_i isUnit
              subst isUnit
              cases care with
              | strict =>
                  obtain ⟨source, escaped, rfl⟩ := unicodeEscape_strict_eq_ok_iff.mp read
                  exact ⟨_, .units escaped, rfl⟩
              | lenient =>
                  obtain ⟨unit, digits, isUnit, rfl, rfl⟩ :=
                    unicodeEscape_lenient_eq_ok_iff.mp read
                  exact ⟨_, .anyUnit isUnit, rfl⟩
            · split at read
              · rename_i meant found
                cases read
                exact ⟨_, .short (shortEscape?_eq_some_iff.mp found), rfl⟩
              · cases read
      · rename_i notEscape
        split at read
        · cases read
        · rename_i notControl
          cases read
          exact ⟨_, .plain (by simpa using notClosed) notEscape (by omega), rfl⟩

theorem CharacterSpelling.stringCharacter_append {care : Care} {character : Char} {source : Text}
    (spelled : CharacterSpelling care character source) (rest : Text) :
    stringCharacter care (source ++ rest) = .ok (character, rest) := by
  cases spelled with
  | plain notQuote notEscape notControl =>
      simp [stringCharacter, notEscape, Nat.not_lt.mpr notControl]
  | @short _ letter _ listed =>
      have notUnit : letter ≠ 'u' := by
        intro isUnit
        subst isUnit
        have none : ∀ pair ∈ shortEscapes, pair.1 ≠ 'u' := by decide
        exact none _ listed rfl
      simp [stringCharacter, escape, notUnit, shortEscape?_eq_some_iff.mpr listed]
  | units escaped =>
      obtain ⟨digits, rfl⟩ := escaped.exists_eq_cons
      have read := unicodeEscape_strict_eq_ok_iff.mpr ⟨digits, escaped, Eq.refl (digits ++ rest)⟩
      simpa [stringCharacter, escape] using read
  | anyUnit isUnit =>
      have read := unicodeEscape_lenient_eq_ok_iff.mpr ⟨_, _, isUnit, rfl, Eq.refl (_ ++ rest)⟩
      simpa [stringCharacter, escape] using read

theorem CharacterSpelling.head?_ne {care : Care} {character : Char} {source : Text}
    (spelled : CharacterSpelling care character source) (rest : Text) :
    (source ++ rest).head? ≠ some '"' := by
  cases spelled with
  | plain notQuote _ _ => simpa using notQuote
  | short _ => simp
  | units escaped =>
      obtain ⟨digits, rfl⟩ := escaped.exists_eq_cons
      simp
  | anyUnit _ => simp

/-- A string is read up to the first quote that is not escaped, if it is spelled as it has to be. -/
theorem quoted_eq_ok_iff {care : Care} {text content rest : Text} :
    quoted care text = .ok (content, rest) ↔
      ∃ source, Spelling care content source ∧ text = source ++ '"' :: rest := by
  constructor
  · intro read
    fun_induction quoted care text generalizing content with
    | case1 text closed =>
        cases read
        obtain ⟨after, rfl⟩ := List.head?_eq_some_iff.mp closed
        exact ⟨[], .nil, rfl⟩
    | case2 text notClosed fault refused => cases read
    | case3 text notClosed character afterCharacter characterRead ih =>
        obtain ⟨⟨later, afterLater⟩, laterRead, read⟩ := bind_ok read
        cases read
        obtain ⟨first, spelled, rfl⟩ := stringCharacter_sound notClosed characterRead
        obtain ⟨source, spelledLater, rfl⟩ := ih laterRead
        exact ⟨first ++ source, .cons spelled spelledLater rfl, by simp⟩
  · rintro ⟨source, spelling, rfl⟩
    induction spelling with
    | nil => simp [quoted]
    | @cons character content first later source spelled spelledLater joined ih =>
        subst joined
        have characterRead := spelled.stringCharacter_append (later ++ '"' :: rest)
        rw [List.append_assoc, quoted, if_neg (spelled.head?_ne _)]
        split
        · rename_i refused
          rw [characterRead] at refused
          cases refused
        · rename_i read
          rw [characterRead] at read
          cases read
          simp [ih, bind, Except.bind, pure, Except.pure]

/-- What spells a string is told by reading it with a quote behind it. -/
theorem spelling_iff {care : Care} {content source : Text} :
    Spelling care content source ↔ quoted care (source ++ ['"']) = .ok (content, []) := by
  constructor
  · intro spelling
    exact quoted_eq_ok_iff.mpr ⟨source, spelling, rfl⟩
  · intro read
    obtain ⟨spelled, spelling, joined⟩ := quoted_eq_ok_iff.mp read
    exact List.append_cancel_right joined ▸ spelling

/-! ## Every text has a spelling -/

theorem exists_isHexDigit (value : Nat) (small : value < 16) : ∃ digit, IsHexDigit digit value :=
  ⟨"0123456789abcdef".toList.get ⟨value, small⟩, .inl (List.getElem?_eq_getElem small)⟩

theorem exists_unitDigits {unit : Nat} (small : unit < 0x10000) :
    ∃ digits, UnitDigits unit digits := by
  obtain ⟨first, isFirst⟩ := exists_isHexDigit (unit / 4096) (by omega)
  obtain ⟨second, isSecond⟩ := exists_isHexDigit (unit / 256 % 16) (by omega)
  obtain ⟨third, isThird⟩ := exists_isHexDigit (unit / 16 % 16) (by omega)
  obtain ⟨fourth, isFourth⟩ := exists_isHexDigit (unit % 16) (by omega)
  have isUnit := UnitDigits.four isFirst isSecond isThird isFourth
  have sum : ((unit / 4096 * 16 + unit / 256 % 16) * 16 + unit / 16 % 16) * 16 + unit % 16 = unit := by
    omega
  rw [sum] at isUnit
  exact ⟨_, isUnit⟩

theorem exists_escapedUnits {units : List Nat} (small : ∀ unit ∈ units, unit < 0x10000) :
    ∃ source, EscapedUnits units source := by
  induction units with
  | nil => exact ⟨[], .nil⟩
  | cons unit units ih =>
      obtain ⟨digits, isUnit⟩ := exists_unitDigits (small unit List.mem_cons_self)
      obtain ⟨later, areUnits⟩ := ih fun other member => small other (List.mem_cons_of_mem _ member)
      exact ⟨_, .cons isUnit areUnits⟩

theorem lt_of_mem_utf16 {character : Char} {unit : Nat} (member : unit ∈ utf16 character) :
    unit < 0x10000 := by
  have valid : character.toNat < 0xD800 ∨ 0xDFFF < character.toNat ∧ character.toNat < 0x110000 :=
    character.valid
  unfold utf16 at member
  split at member
  · rw [List.mem_singleton.mp member]
    assumption
  · simp only [List.mem_cons, List.not_mem_nil, or_false] at member
    omega

theorem exists_spelling (content : Text) : ∃ source, Spelling .strict content source := by
  induction content with
  | nil => exact ⟨[], .nil⟩
  | cons character content ih =>
      obtain ⟨first, escaped⟩ :=
        exists_escapedUnits fun unit (member : unit ∈ utf16 character) => lt_of_mem_utf16 member
      obtain ⟨later, spelledLater⟩ := ih
      exact ⟨first ++ later, .cons (.units escaped) spelledLater rfl⟩

end ScopedCss.Json
