import ScopedCss.Proofs.Json.Value

set_option autoImplicit false

/-!
# Values that are cut short

A reader that comes to the end of the text too early tells so, wherever in a string, a key or a
value the text was cut. There is one exception. In a number that is only skipped, the end of the
text counts as any other character, so that a number which needs a digit there is malformed.
-/

namespace ScopedCss.Json

/-! ## Cutting a text -/

/-- The first part is the whole without its end. -/
def Cut (part whole : Text) : Prop := ∃ missing, missing ≠ [] ∧ whole = part ++ missing

theorem not_cut_nil (part : Text) : ¬ Cut part [] := by
  rintro ⟨missing, nonempty, joined⟩
  exact nonempty (List.append_eq_nil_iff.mp joined.symm).2

theorem cut_cons_iff {part whole : Text} {first : Char} :
    Cut part (first :: whole) ↔ part = [] ∨ ∃ rest, part = first :: rest ∧ Cut rest whole := by
  constructor
  · rintro ⟨missing, nonempty, joined⟩
    cases part with
    | nil => exact .inl rfl
    | cons head rest =>
        obtain ⟨rfl, split⟩ := List.cons.inj joined
        exact .inr ⟨rest, rfl, missing, nonempty, split⟩
  · rintro (rfl | ⟨rest, rfl, missing, nonempty, rfl⟩)
    · exact ⟨first :: whole, by simp, rfl⟩
    · exact ⟨missing, nonempty, rfl⟩

theorem cut_cons_cons_iff {part whole : Text} {head first : Char} :
    Cut (head :: part) (first :: whole) ↔ head = first ∧ Cut part whole := by
  simp [cut_cons_iff]

theorem cut_append_iff {part first later : Text} :
    Cut part (first ++ later) ↔ Cut part first ∨ ∃ rest, part = first ++ rest ∧ Cut rest later := by
  induction first generalizing part with
  | nil => simp [not_cut_nil]
  | cons character first ih =>
      rw [List.cons_append, cut_cons_iff, cut_cons_iff]
      constructor
      · rintro (empty | ⟨rest, rfl, cut⟩)
        · exact .inl (.inl empty)
        · rcases ih.mp cut with within | ⟨behind, rfl, cutBehind⟩
          · exact .inl (.inr ⟨rest, rfl, within⟩)
          · exact .inr ⟨behind, rfl, cutBehind⟩
      · rintro ((empty | ⟨rest, rfl, cut⟩) | ⟨behind, rfl, cut⟩)
        · exact .inl empty
        · exact .inr ⟨rest, rfl, ih.mpr (.inl cut)⟩
        · exact .inr ⟨first ++ behind, rfl, ih.mpr (.inr ⟨behind, rfl, cut⟩)⟩

theorem cut_singleton_iff {part : Text} {character : Char} :
    Cut part [character] ↔ part = [] := by
  simp [cut_cons_iff, not_cut_nil]

theorem Cut.subset {part whole : Text} (cut : Cut part whole) : part ⊆ whole := by
  obtain ⟨missing, _, rfl⟩ := cut
  exact List.subset_append_left part missing

theorem Space.of_cut {part whole : Text} (space : Space whole) (cut : Cut part whole) :
    Space part :=
  fun character member => space character (cut.subset member)

/-! ## Fixed words -/

theorem word_of_cut {part expected : Text} (cut : Cut part expected) :
    word expected part = .error .unfinished := by
  induction expected generalizing part with
  | nil => exact absurd cut (not_cut_nil part)
  | cons character expected ih =>
      rcases cut_cons_iff.mp cut with rfl | ⟨rest, rfl, cutRest⟩
      · rfl
      · simp [word, ih cutRest]

theorem Space.mark {text : Text} (space : Space text) (expected : Char) :
    mark expected text = .error .unfinished := by
  rw [Json.mark, skipSpace_eq_nil_iff.mpr space]
  rfl

/-! ## Strings -/

theorem IsHexDigit.utf8Size {digit : Char} {value : Nat} (isDigit : IsHexDigit digit value) :
    digit.utf8Size = 1 := by
  have ascii : ("0123456789abcdefABCDEF".toList.all fun digit => digit.utf8Size == 1) = true := by
    decide
  apply eq_of_beq
  apply List.all_eq_true.mp ascii
  rcases isDigit with listed | listed
  · exact List.mem_append_left "ABCDEF".toList (List.mem_of_getElem? listed)
  · have capitals : "0123456789ABCDEF".toList ⊆ "0123456789abcdefABCDEF".toList := by decide
    exact capitals (List.mem_of_getElem? listed)

theorem UnitDigits.codeUnit_of_cut {unit : Nat} {digits part : Text}
    (isUnit : UnitDigits unit digits) (cut : Cut part digits) :
    codeUnit part = .error .unfinished := by
  cases isUnit with
  | four isFirst isSecond isThird isFourth =>
      simp only [cut_cons_iff, not_cut_nil, and_false, exists_false, or_false] at cut
      rcases cut with rfl | ⟨_, rfl, rfl | ⟨_, rfl, rfl | ⟨_, rfl, rfl⟩⟩⟩
      · rfl
      · simp [codeUnit, Text.byteLength, isFirst.utf8Size]
      · simp [codeUnit, Text.byteLength, isFirst.utf8Size, isSecond.utf8Size]
      · simp [codeUnit, Text.byteLength, isFirst.utf8Size, isSecond.utf8Size, isThird.utf8Size]

theorem EscapedUnits.unicodeEscape_of_cut {character : Char} {source part : Text}
    (escaped : EscapedUnits (utf16 character) ('\\' :: 'u' :: source)) (cut : Cut part source) :
    unicodeEscape .strict part = .error .unfinished := by
  rcases utf16_cases character with
    ⟨unit, units, notHigh, notLow, _⟩ | ⟨high, low, units, isHigh, isLow, _⟩
  · rw [units, escapedUnits_singleton_iff] at escaped
    simp [unicodeEscape, escaped.codeUnit_of_cut cut, bind, Except.bind]
  · rw [units, escapedUnits_pair_iff] at escaped
    obtain ⟨highDigits, lowDigits, isHighUnit, isLowUnit, rfl⟩ := escaped
    rcases cut_append_iff.mp cut with within | ⟨behind, rfl, cutBehind⟩
    · simp [unicodeEscape, isHighUnit.codeUnit_of_cut within, bind, Except.bind]
    · have highRead := codeUnit_eq_ok_iff.mpr
        ⟨highDigits, isHighUnit, Eq.refl (highDigits ++ behind)⟩
      have marked := isLowSurrogate_of_isHighSurrogate isHigh
      rcases cut_append_iff.mp (show Cut behind (['\\', 'u'] ++ lowDigits) from cutBehind) with
        withinMark | ⟨digits, rfl, cutDigits⟩
      · simp [unicodeEscape, highRead, isHigh, marked, word_of_cut withinMark, bind, Except.bind]
      · have lowRead := isLowUnit.codeUnit_of_cut cutDigits
        have markRead := word_eq_ok_iff.mpr (Eq.refl (['\\', 'u'] ++ digits))
        simp only [unicodeEscape, highRead, isHigh, marked, markRead, lowRead, bind, Except.bind,
          Bool.false_eq_true, ↓reduceIte]

theorem CharacterSpelling.stringCharacter_of_cut {care : Care} {character : Char}
    {source part : Text} (spelled : CharacterSpelling care character source)
    (cut : Cut part source) : stringCharacter care part = .error .unfinished := by
  cases spelled with
  | plain _ _ _ =>
      rw [cut_singleton_iff] at cut
      rw [cut]
      rfl
  | short _ =>
      rcases cut_cons_iff.mp cut with rfl | ⟨_, rfl, cutLetter⟩
      · rfl
      · rw [cut_singleton_iff] at cutLetter
        simp [cutLetter, stringCharacter, escape]
  | units escaped =>
      obtain ⟨digits, rfl⟩ := escaped.exists_eq_cons
      simp only [cut_cons_iff] at cut
      rcases cut with rfl | ⟨_, rfl, rfl | ⟨_, rfl, cut⟩⟩
      · rfl
      · rfl
      · simp [stringCharacter, escape, escaped.unicodeEscape_of_cut cut]
  | anyUnit isUnit =>
      simp only [cut_cons_iff] at cut
      rcases cut with rfl | ⟨_, rfl, rfl | ⟨_, rfl, cut⟩⟩
      · rfl
      · rfl
      · simp [stringCharacter, escape, unicodeEscape, isUnit.codeUnit_of_cut cut, bind, Except.bind]

theorem quoted_of_error {care : Care} {text : Text} {fault : Fault}
    (notClosed : text.head? ≠ some '"') (refused : stringCharacter care text = .error fault) :
    quoted care text = .error fault := by
  rw [quoted, if_neg notClosed]
  split
  · rename_i other otherwise
    rw [refused] at otherwise
    cases otherwise
    rfl
  · rename_i read
    rw [refused] at read
    cases read

theorem quoted_of_ok {care : Care} {text rest : Text} {character : Char}
    (notClosed : text.head? ≠ some '"') (read : stringCharacter care text = .ok (character, rest)) :
    quoted care text = quoted care rest >>= fun later => .ok (character :: later.1, later.2) := by
  rw [quoted, if_neg notClosed]
  split
  · rename_i refused
    rw [read] at refused
    cases refused
  · rename_i otherwise
    rw [read] at otherwise
    cases otherwise
    rfl

theorem Spelling.quoted_of_cut {care : Care} {content source part : Text}
    (spelling : Spelling care content source) (cut : Cut part (source ++ ['"'])) :
    quoted care part = .error .unfinished := by
  induction spelling generalizing part with
  | nil =>
      obtain rfl := cut_singleton_iff.mp cut
      exact quoted_of_error (by simp) rfl
  | @cons character content first later source spelled spelledLater joined ih =>
      rw [joined, List.append_assoc] at cut
      rcases cut_append_iff.mp cut with within | ⟨rest, rfl, cutRest⟩
      · refine quoted_of_error ?_ (spelled.stringCharacter_of_cut within)
        obtain ⟨missing, _, split⟩ := within
        cases part with
        | nil => simp
        | cons head tail => simpa [split] using spelled.head?_ne []
      · rw [quoted_of_ok (spelled.head?_ne rest) (spelled.stringCharacter_append rest), ih cutRest]
        rfl

/-! ## Numbers -/

/-- A number without its sign, up to where another digit is needed. -/
inductive BrokenUnsigned : Text → Prop where
  | empty : BrokenUnsigned []
  | point {whole : Text} (isWhole : IsWhole whole) : BrokenUnsigned (whole ++ ['.'])
  | power {whole fraction sign : Text} {mark : Char} (isWhole : IsWhole whole)
      (isFraction : IsFraction fraction) (isMark : mark = 'e' ∨ mark = 'E')
      (isSign : sign = [] ∨ sign = ['+'] ∨ sign = ['-']) :
      BrokenUnsigned (whole ++ (fraction ++ mark :: sign))

/-- A number that ends right behind its sign, its point, the mark of its exponent or the sign of
that. -/
inductive BrokenNumber : Text → Prop where
  | positive {source : Text} (broken : BrokenUnsigned source) (nonempty : source ≠ []) :
      BrokenNumber source
  | negative {source : Text} (broken : BrokenUnsigned source) : BrokenNumber ('-' :: source)

theorem IsDigits.of_cut {places part : Text} (isDigits : IsDigits places) (cut : Cut part places)
    (nonempty : part ≠ []) : IsDigits part :=
  ⟨nonempty, fun character member => isDigits.isDigit character (cut.subset member)⟩

theorem IsWhole.of_cut {whole part : Text} (isWhole : IsWhole whole) (cut : Cut part whole)
    (nonempty : part ≠ []) : IsWhole part where
  toIsDigits := isWhole.toIsDigits.of_cut cut nonempty
  zero := by
    intro zero
    obtain ⟨missing, missingNonempty, rfl⟩ := cut
    have alone := isWhole.zero (by rw [List.head?_append_of_ne_nil part nonempty, zero])
    have counted := List.length_pos_iff.mpr missingNonempty
    have started := List.length_pos_iff.mpr nonempty
    rw [List.length_append] at alone
    omega

theorem IsFraction.of_cut {whole fraction part : Text} (isWhole : IsWhole whole)
    (isFraction : IsFraction fraction) (cut : Cut part fraction) :
    BrokenUnsigned (whole ++ part) ∨ IsUnsigned (whole ++ part) := by
  cases isFraction with
  | absent => exact absurd cut (not_cut_nil part)
  | point isDigits =>
      rcases cut_cons_iff.mp cut with rfl | ⟨places, rfl, cutPlaces⟩
      · exact .inr (.parts isWhole .absent .absent rfl)
      · by_cases empty : places = []
        · exact .inl (empty ▸ .point isWhole)
        · refine .inr (.parts isWhole (.point (isDigits.of_cut cutPlaces empty)) .absent ?_)
          rw [List.append_nil]

theorem IsExponent.of_cut {whole fraction exponent part : Text} (isWhole : IsWhole whole)
    (isFraction : IsFraction fraction) (isExponent : IsExponent exponent)
    (cut : Cut part exponent) :
    BrokenUnsigned (whole ++ (fraction ++ part)) ∨ IsUnsigned (whole ++ (fraction ++ part)) := by
  cases isExponent with
  | absent => exact absurd cut (not_cut_nil part)
  | @power mark sign places isMark isSign isDigits =>
      rcases cut_cons_iff.mp cut with rfl | ⟨signed, rfl, cutSigned⟩
      · exact .inr (.parts isWhole isFraction .absent rfl)
      · rcases cut_append_iff.mp cutSigned with within | ⟨digits, rfl, cutDigits⟩
        · have empty : signed = [] := by
            rcases isSign with rfl | rfl | rfl
            · exact absurd within (not_cut_nil signed)
            · exact cut_singleton_iff.mp within
            · exact cut_singleton_iff.mp within
          exact .inl (.power isWhole isFraction isMark (.inl empty))
        · by_cases empty : digits = []
          · subst empty
            rw [List.append_nil]
            exact .inl (.power isWhole isFraction isMark isSign)
          · exact .inr (.parts isWhole isFraction
              (.power isMark isSign (isDigits.of_cut cutDigits empty)) rfl)

/-- What is left of a number needs another digit, or is a number itself. -/
theorem IsUnsigned.of_cut {source part : Text} (isUnsigned : IsUnsigned source)
    (cut : Cut part source) : BrokenUnsigned part ∨ IsUnsigned part := by
  cases isUnsigned with
  | @parts whole fraction exponent _ isWhole isFraction isExponent joined =>
      rw [joined] at cut
      rcases cut_append_iff.mp cut with within | ⟨behind, rfl, cutBehind⟩
      · by_cases empty : part = []
        · exact .inl (empty ▸ .empty)
        · refine .inr (.parts (isWhole.of_cut within empty) .absent .absent ?_)
          rw [List.append_nil, List.append_nil]
      · rcases cut_append_iff.mp cutBehind with within | ⟨rest, rfl, cutRest⟩
        · exact isFraction.of_cut isWhole within
        · exact isExponent.of_cut isWhole isFraction cutRest

theorem digits_nil : digits .lenient [] = .error .malformed := rfl

theorem BrokenUnsigned.numberScalar_eq_malformed {source : Text} (broken : BrokenUnsigned source) :
    numberScalar .lenient source = .error .malformed := by
  cases broken with
  | empty => rfl
  | point isWhole =>
      have ends : EndsDigits ['.'] := by
        intro character first
        cases first
        rfl
      have wholeRead := isWhole.wholeDigits_append ends .lenient
      simp [Json.numberScalar, number, wholeRead, fraction, digits_nil, bind, Except.bind]
  | @power whole fraction sign mark isWhole isFraction isMark isSign =>
      have ends : EndsDigits (mark :: sign) ∧ (mark :: sign).head? ≠ some '.' := by
        rcases isMark with rfl | rfl
        · exact ⟨fun character first => by cases first; rfl, by simp⟩
        · exact ⟨fun character first => by cases first; rfl, by simp⟩
      obtain ⟨places, fractionRead⟩ := isFraction.fraction_append ends.1 ends.2 .lenient
      have wholeRead := isWhole.wholeDigits_append (isFraction.endsDigits_append ends.1) .lenient
      have signRead : (exponentSign sign).2 = [] := by
        rcases isSign with rfl | rfl | rfl
        · rfl
        · rfl
        · rfl
      have marked : (mark :: sign).head? = some 'e' ∨ (mark :: sign).head? = some 'E' := by
        simpa using isMark
      have exponentRead : exponent .lenient (mark :: sign) = .error .malformed := by
        rw [exponent, if_pos marked, List.tail_cons]
        simp only [signRead, digits_nil, bind, Except.bind]
      simp [Json.numberScalar, number, wholeRead, fractionRead, exponentRead, bind, Except.bind]

/-! ## Scalars -/

theorem scalar_of_cut_word {expected part : Text}
    (listed : expected ∈ ["null".toList, "true".toList, "false".toList])
    (cut : Cut part expected) : scalar .lenient part = .error .unfinished := by
  cases part with
  | nil => rfl
  | cons first rest =>
      simp only [List.mem_cons, List.not_mem_nil, or_false] at listed
      rcases listed with rfl | rfl | rfl
      · obtain ⟨rfl, cutRest⟩ := cut_cons_cons_iff.mp cut
        exact word_of_cut cutRest
      · obtain ⟨rfl, cutRest⟩ := cut_cons_cons_iff.mp cut
        exact word_of_cut cutRest
      · obtain ⟨rfl, cutRest⟩ := cut_cons_cons_iff.mp cut
        exact word_of_cut cutRest

theorem IsScalar.of_cut {source part : Text} (isScalar : IsScalar source) (cut : Cut part source) :
    BrokenNumber part ∨ IsScalar part ∨ scalar .lenient part = .error .unfinished := by
  cases isScalar with
  | word listed => exact .inr (.inr (scalar_of_cut_word listed cut))
  | positive isUnsigned =>
      by_cases empty : part = []
      · exact .inr (.inr (by rw [empty, scalar]))
      · rcases isUnsigned.of_cut cut with broken | isUnsigned
        · exact .inl (.positive broken empty)
        · exact .inr (.inl (.positive isUnsigned))
  | negative isUnsigned =>
      rcases cut_cons_iff.mp cut with rfl | ⟨rest, rfl, cutRest⟩
      · exact .inr (.inr rfl)
      · rcases isUnsigned.of_cut cutRest with broken | isUnsigned
        · exact .inl (.negative broken)
        · exact .inr (.inl (.negative isUnsigned))
  | string spelling =>
      rcases cut_cons_iff.mp cut with rfl | ⟨rest, rfl, cutRest⟩
      · exact .inr (.inr rfl)
      · have quotedRead := spelling.quoted_of_cut cutRest
        exact .inr (.inr (by simp [scalar, quotedRead, bind, Except.bind]))

theorem BrokenUnsigned.exists_cons {source : Text} (broken : BrokenUnsigned source)
    (nonempty : source ≠ []) : ∃ first later, source = first :: later ∧ first.isDigit = true := by
  cases broken with
  | empty => exact absurd rfl nonempty
  | point isWhole =>
      obtain ⟨first, later, rfl, isDigit⟩ := isWhole.toIsDigits.exists_cons
      exact ⟨first, _, rfl, isDigit⟩
  | power isWhole _ _ _ =>
      obtain ⟨first, later, rfl, isDigit⟩ := isWhole.toIsDigits.exists_cons
      exact ⟨first, _, rfl, isDigit⟩

theorem BrokenNumber.exists_cons {source : Text} (broken : BrokenNumber source) :
    ∃ first later, source = first :: later ∧ IsInner first := by
  cases broken with
  | positive broken nonempty =>
      obtain ⟨first, later, rfl, isDigit⟩ := broken.exists_cons nonempty
      exact ⟨first, later, rfl, isInner_of_isDigit isDigit⟩
  | negative _ => exact ⟨'-', _, rfl, rfl, rfl, by rintro ⟨⟩ <;> decide⟩

theorem BrokenNumber.scalar_eq_malformed {source : Text} (broken : BrokenNumber source) :
    scalar .lenient source = .error .malformed := by
  cases broken with
  | positive broken nonempty =>
      obtain ⟨first, later, rfl, isDigit⟩ := broken.exists_cons nonempty
      rw [scalar_of_isDigit isDigit]
      exact broken.numberScalar_eq_malformed
  | negative broken => exact broken.numberScalar_eq_malformed

/-! ## Keys -/

theorem KeyString.read_of_cut {care : Care} {name source part : Text}
    (isKey : KeyString care name source) (cut : Cut part source) :
    mark '"' part >>= quoted care = .error .unfinished := by
  cases isKey with
  | @spelled lead key _ leadSpace spelling joined =>
      rw [joined] at cut
      rcases cut_append_iff.mp cut with within | ⟨behind, rfl, cutBehind⟩
      · simp [(leadSpace.of_cut within).mark, bind, Except.bind]
      · rcases cut_cons_iff.mp cutBehind with rfl | ⟨inner, rfl, cutInner⟩
        · simp [leadSpace.mark, bind, Except.bind]
        · have quoteRead := (mark_eq_ok_iff rfl).mpr
            ⟨lead, leadSpace, Eq.refl (lead ++ '"' :: inner)⟩
          simp [quoteRead, spelling.quoted_of_cut cutInner, bind, Except.bind]

/-- A mark that is cut short together with the white space around it leaves nothing behind it. -/
theorem mark_bind_of_cut {α : Type} {expected : Char} (solid : isSpace expected = false)
    {before after part : Text} (beforeSpace : Space before) (afterSpace : Space after)
    (cut : Cut part (before ++ expected :: after)) {next : Text → Except Fault α}
    (ends : ∀ space, Space space → next space = .error .unfinished) :
    mark expected part >>= next = .error .unfinished := by
  rcases cut_append_iff.mp cut with within | ⟨behind, rfl, cutBehind⟩
  · rw [(beforeSpace.of_cut within).mark]
    rfl
  · rcases cut_cons_iff.mp cutBehind with rfl | ⟨space, rfl, cutSpace⟩
    · rw [List.append_nil, beforeSpace.mark]
      rfl
    · rw [(mark_eq_ok_iff solid).mpr ⟨before, beforeSpace, rfl⟩]
      exact ends space (afterSpace.of_cut cutSpace)

/-- A key is cut short in its string or around its colon. -/
theorem KeySource.cases_of_cut {care : Care} {name source part : Text}
    (keySource : KeySource care name source) (cut : Cut part source) :
    mark '"' part >>= quoted care = .error .unfinished ∨
      ∃ key rest before after, KeyString care name key ∧ Space before ∧ Space after ∧
        Cut rest (before ++ ':' :: after) ∧ part = key ++ rest := by
  obtain ⟨key, before, after, isKey, beforeSpace, afterSpace, rfl⟩ := keySource.exists_keyString
  rcases cut_append_iff.mp cut with within | ⟨rest, rfl, cutRest⟩
  · exact .inl (isKey.read_of_cut within)
  · exact .inr ⟨key, rest, before, after, isKey, beforeSpace, afterSpace, cutRest, rfl⟩

/-! ## Values -/

/-- Values and items that end within a number which needs another digit. -/
inductive BreaksOff : Nonterminal → Text → Prop where
  | number {source : Text} (broken : BrokenNumber source) : BreaksOff .value source
  | inside {bracket : Bracket} {inner source : Text} (items : BreaksOff (.items bracket) inner)
      (joined : source = bracket.opening :: inner) : BreaksOff .value source
  | here {bracket : Bracket} {lead value source : Text} (isLead : IsLead bracket lead)
      (breaksOff : BreaksOff .value value) (joined : source = lead ++ value) :
      BreaksOff (.items bracket) source
  | later {bracket : Bracket} {lead value tail later source : Text} (isLead : IsLead bracket lead)
      (isValue : IsValue value) (space : Space tail) (items : BreaksOff (.items bracket) later)
      (joined : source = lead ++ (value ++ (tail ++ ',' :: later))) :
      BreaksOff (.items bracket) source

namespace Skipping

theorem run_of_space {place : Place} {brackets : List Bracket} {text : Text}
    (running : isDone ⟨place, brackets, text⟩ = false) (space : Space text) :
    run ⟨place, brackets, text⟩ = .error .unfinished :=
  run_of_nil running (skipSpace_eq_nil_iff.mpr space)

theorem enter_object (brackets : List Bracket) (text : Text) :
    enter .object brackets text = (mark '"' text >>= quoted .lenient) >>= fun read =>
      mark ':' read.2 >>= fun rest => run ⟨.value, .object :: brackets, rest⟩ := by
  rw [enter, Bracket.beforeValue, key_eq_bind]
  cases mark '"' text >>= quoted .lenient with
  | error fault => rfl
  | ok read =>
      simp only [bind, Except.bind]
      cases mark ':' read.2 with
      | error fault => rfl
      | ok rest => rfl

end Skipping

open Skipping (enter)

theorem IsLead.enter_of_cut {bracket : Bracket} {lead part : Text} (isLead : IsLead bracket lead)
    (cut : Cut part lead) (brackets : List Bracket) :
    enter bracket brackets part = .error .unfinished := by
  cases isLead with
  | element space => exact Skipping.run_of_space rfl (space.of_cut cut)
  | member keySource =>
      rw [Skipping.enter_object]
      rcases keySource.cases_of_cut cut with
        refused | ⟨key, rest, before, after, isKey, beforeSpace, afterSpace, cutRest, rfl⟩
      · rw [refused]
        rfl
      · rw [isKey.read_append]
        exact mark_bind_of_cut rfl beforeSpace afterSpace cutRest
          fun space isSpace => Skipping.run_of_space rfl isSpace

theorem skipSpace_append_of_eq_cons {text after : Text} {first : Char}
    (start : skipSpace text = first :: after) (rest : Text) :
    skipSpace (text ++ rest) = first :: (after ++ rest) := by
  obtain ⟨lead, space, rfl⟩ := exists_space_of_skipSpace_eq start
  have solid : isSpace first = false := by
    rw [space.skipSpace_append] at start
    by_contra blank
    have skipped : skipSpace (first :: after) = skipSpace after := by
      simp [skipSpace, show isSpace first = true by simpa using blank]
    have shorter := skipSpace_length_le after
    rw [← skipped, start, List.length_cons] at shorter
    omega
  rw [List.append_assoc]
  exact space.skipSpace_append_cons solid (after ++ rest)

theorem skipSpace_of_cut {part whole later : Text} {first : Char} (cut : Cut part whole)
    (start : skipSpace whole = first :: later) :
    skipSpace part = [] ∨ ∃ after, skipSpace part = first :: after := by
  cases partStart : skipSpace part with
  | nil => exact .inl rfl
  | cons head after =>
      obtain ⟨missing, _, rfl⟩ := cut
      rw [skipSpace_append_of_eq_cons partStart missing] at start
      obtain ⟨rfl, _⟩ := List.cons.inj start
      exact .inr ⟨after, rfl⟩

/-- Behind an opening bracket, items that are cut short are entered all the same. -/
theorem run_opened_of_cut {bracket : Bracket} {items part : Text}
    (areItems : Derives (.items bracket) items) (cut : Cut part (items ++ [bracket.closing]))
    (brackets : List Bracket)
    (refused : enter bracket brackets part = .error .unfinished) :
    Skipping.run ⟨.opened bracket, brackets, part⟩ = .error .unfinished := by
  obtain ⟨first, later, start, notClosing⟩ := areItems.exists_skipSpace_eq_cons [bracket.closing]
  rcases skipSpace_of_cut cut start with none | ⟨after, partStart⟩
  · exact Skipping.run_of_nil rfl none
  · rw [Skipping.run_opened_of_ne partStart notClosing, refused]

/-- What a part may be that is cut short: it breaks off in a number, or it is a value itself, or the
end of the text comes too early for it. -/
def CutShort : Nonterminal → Text → Prop
  | .value, part => BreaksOff .value part ∨ IsValue part ∨
      ∀ brackets, Skipping.run ⟨.value, brackets, part⟩ = .error .unfinished
  | .items bracket, part => BreaksOff (.items bracket) part ∨
      ∀ brackets, enter bracket brackets part = .error .unfinished

/-- Items may be cut right before the closing bracket. -/
def CutOf : Nonterminal → Text → Text → Prop
  | .value, source, part => Cut part source
  | .items bracket, source, part => Cut part (source ++ [bracket.closing])

theorem enter_of_value_space {bracket : Bracket} {lead value space : Text}
    (isLead : IsLead bracket lead) (isValue : IsValue value) (isSpace : Space space)
    (brackets : List Bracket) :
    enter bracket brackets (lead ++ (value ++ space)) = .error .unfinished := by
  have ends : EndsNumber space := by
    simpa using isSpace.endsNumber_append (show EndsNumber [] from nofun)
  rw [Skipping.enter_append isLead (Skipping.passes_of_derives isValue) ends]
  exact Skipping.run_of_space rfl isSpace

theorem CutShort.items {bracket : Bracket} {lead part : Text} (isLead : IsLead bracket lead)
    (short : CutShort .value part) : CutShort (.items bracket) (lead ++ part) := by
  rcases short with breaksOff | isValue | refused
  · exact .inl (.here isLead breaksOff rfl)
  · refine .inr fun brackets => ?_
    have entered := enter_of_value_space isLead isValue space_nil brackets
    rwa [List.append_nil] at entered
  · refine .inr fun brackets => ?_
    obtain ⟨space, isSpace, leadRead⟩ := isLead.exists_beforeValue_append
    rw [enter, leadRead]
    exact (Skipping.run_value_append isSpace _ part).trans (refused _)

/-- The first of some items is cut short, or the cut comes behind its value. -/
theorem cutShort_first {bracket : Bracket} {lead value behind part : Text}
    (isLead : IsLead bracket lead) (short : ∀ {part}, Cut part value → CutShort .value part)
    (cut : Cut part (lead ++ (value ++ behind))) :
    CutShort (.items bracket) part ∨ ∃ rest, part = lead ++ (value ++ rest) ∧ Cut rest behind := by
  rcases cut_append_iff.mp cut with within | ⟨rest, rfl, cutRest⟩
  · exact .inl (.inr (isLead.enter_of_cut within))
  · rcases cut_append_iff.mp cutRest with within | ⟨last, rfl, cutLast⟩
    · exact .inl ((short within).items isLead)
    · exact .inr ⟨last, rfl, cutLast⟩

theorem Space.of_cut_concat {space part : Text} {stop : Char} (isSpace : Space space)
    (cut : Cut part (space ++ [stop])) : Space part := by
  rcases cut_append_iff.mp cut with within | ⟨rest, rfl, cutRest⟩
  · exact isSpace.of_cut within
  · rw [cut_singleton_iff.mp cutRest, List.append_nil]
    exact isSpace

theorem cutShort_of_cutOf {nonterminal : Nonterminal} {source : Text}
    (derives : Derives nonterminal source) {part : Text} (cut : CutOf nonterminal source part) :
    CutShort nonterminal part := by
  induction derives generalizing part with
  | scalar isScalar =>
      -- A number without its end may still be a number, and with it a value.
      rcases isScalar.of_cut cut with broken | isScalar | refused
      · exact .inl (.number broken)
      · exact .inr (.inl (.scalar isScalar))
      · refine .inr (.inr fun brackets => ?_)
        obtain ⟨first, later, rfl, inner⟩ := isScalar.exists_cons
        rcases cut_cons_iff.mp cut with rfl | ⟨rest, rfl, _⟩
        · exact Skipping.run_of_space rfl space_nil
        · rw [Skipping.run_value_of_scalar (skipSpace_cons inner.solid rest) inner.notOpening,
            refused]
          rfl
  | @empty bracket inner source space joined =>
      rw [joined] at cut
      refine .inr (.inr fun brackets => ?_)
      rcases cut_cons_iff.mp cut with rfl | ⟨rest, rfl, cutRest⟩
      · exact Skipping.run_of_space rfl space_nil
      · rw [Skipping.run_value_of_opening (skipSpace_cons (isSpace_opening bracket) rest)]
        exact Skipping.run_of_space rfl (space.of_cut_concat cutRest)
  | @filled bracket inner source items joined ih =>
      rw [joined] at cut
      rcases cut_cons_iff.mp cut with rfl | ⟨rest, rfl, cutRest⟩
      · exact .inr (.inr fun brackets => Skipping.run_of_space rfl space_nil)
      · rcases ih cutRest with breaksOff | refused
        · exact .inl (.inside breaksOff rfl)
        · refine .inr (.inr fun brackets => ?_)
          rw [Skipping.run_value_of_opening (skipSpace_cons (isSpace_opening bracket) rest)]
          exact run_opened_of_cut items cutRest brackets (refused brackets)
  | @last bracket lead value tail source isLead isValue space joined ih =>
      rw [CutOf, joined, List.append_assoc, List.append_assoc] at cut
      rcases cutShort_first isLead ih cut with short | ⟨rest, rfl, cutRest⟩
      · exact short
      · -- The value is complete, and the bracket that closes the items is missing.
        exact .inr (enter_of_value_space isLead isValue (space.of_cut_concat cutRest))
  | @more bracket lead value tail later source isLead isValue space items joined ihValue ihLater =>
      rw [CutOf, joined, List.append_assoc, List.append_assoc, List.append_assoc,
        List.cons_append] at cut
      rcases cutShort_first isLead ihValue cut with short | ⟨rest, rfl, cutRest⟩
      · exact short
      · rcases cut_append_iff.mp cutRest with within | ⟨behind, rfl, cutBehind⟩
        · exact .inr (enter_of_value_space isLead isValue (space.of_cut within))
        · rcases cut_cons_iff.mp cutBehind with rfl | ⟨last, rfl, cutLast⟩
          · rw [List.append_nil]
            exact .inr (enter_of_value_space isLead isValue space)
          · rcases ihLater cutLast with breaksOff | refused
            · exact .inl (.later isLead isValue space breaksOff rfl)
            · refine .inr fun brackets => ?_
              rw [Skipping.enter_append isLead (Skipping.passes_of_derives isValue)
                (space.endsNumber_append (endsNumber_comma last)),
                Skipping.run_ended_of_comma (space.skipSpace_append_cons rfl last), refused]

/-! ## What breaks off is malformed -/

theorem BreaksOff.exists_cons {source : Text} (breaksOff : BreaksOff .value source) :
    ∃ first later, source = first :: later ∧ isSpace first = false ∧
      ∀ bracket : Bracket, first ≠ bracket.closing := by
  cases breaksOff with
  | number broken =>
      obtain ⟨first, later, rfl, inner⟩ := broken.exists_cons
      exact ⟨first, later, rfl, inner.solid, inner.notClosing⟩
  | @inside bracket _ _ _ joined =>
      exact ⟨_, _, joined, isSpace_opening bracket, opening_ne_closing bracket⟩

theorem BreaksOff.exists_skipSpace_eq_cons {bracket : Bracket} {source : Text}
    (breaksOff : BreaksOff (.items bracket) source) :
    ∃ first later, skipSpace source = first :: later ∧ first ≠ bracket.closing := by
  cases breaksOff with
  | here isLead breaksOff joined =>
      simpa [joined] using isLead.exists_skipSpace_eq_cons breaksOff.exists_cons []
  | later isLead isValue _ _ joined =>
      rw [joined]
      exact isLead.exists_skipSpace_eq_cons isValue.exists_cons _

/-- What a skipping says of a value or of items that it refuses. -/
def Refuses : Nonterminal → Text → Prop
  | .value, source => ∀ brackets, Skipping.run ⟨.value, brackets, source⟩ = .error .malformed
  | .items bracket, source => ∀ brackets, enter bracket brackets source = .error .malformed

theorem BreaksOff.refuses {nonterminal : Nonterminal} {source : Text}
    (breaksOff : BreaksOff nonterminal source) : Refuses nonterminal source := by
  induction breaksOff with
  | number broken =>
      intro brackets
      obtain ⟨first, later, rfl, inner⟩ := broken.exists_cons
      rw [Skipping.run_value_of_scalar (skipSpace_cons inner.solid later) inner.notOpening,
        broken.scalar_eq_malformed]
      rfl
  | @inside bracket inner source items joined ih =>
      intro brackets
      obtain ⟨first, later, start, notClosing⟩ := items.exists_skipSpace_eq_cons
      rw [joined, Skipping.run_value_of_opening (skipSpace_cons (isSpace_opening bracket) inner),
        Skipping.run_opened_of_ne start notClosing, ih]
  | here isLead _ joined ih =>
      intro brackets
      obtain ⟨space, isSpace, leadRead⟩ := isLead.exists_beforeValue_append
      rw [joined, enter, leadRead]
      exact (Skipping.run_value_append isSpace _ _).trans (ih _)
  | later isLead isValue space _ joined ih =>
      intro brackets
      rw [joined, Skipping.enter_append isLead (Skipping.passes_of_derives isValue)
        (space.endsNumber_append (endsNumber_comma _)),
        Skipping.run_ended_of_comma (space.skipSpace_append_cons rfl _), ih]

/-! ## Skipping -/

theorem BreaksOff.skip_append {space source : Text} (breaksOff : BreaksOff .value source)
    (isSpace : Space space) : skip (space ++ source) = .error .malformed := by
  rw [skip, Skipping.run_value_append isSpace]
  exact breaksOff.refuses []

theorem Space.skip {space : Text} (isSpace : Space space) : skip space = .error .unfinished :=
  Skipping.run_of_space rfl isSpace

theorem IsValue.cases_of_cut {value part : Text} (isValue : IsValue value) (cut : Cut part value)
    {space : Text} (isSpace : Space space) :
    BreaksOff .value part ∨ IsValue part ∨ Json.skip (space ++ part) = .error .unfinished := by
  rcases cutShort_of_cutOf isValue cut with breaksOff | isValue | refused
  · exact .inl breaksOff
  · exact .inr (.inl isValue)
  · refine .inr (.inr ?_)
    rw [Json.skip, Skipping.run_value_append isSpace]
    exact refused []

end ScopedCss.Json
