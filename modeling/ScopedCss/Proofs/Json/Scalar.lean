import Mathlib.Data.List.TakeWhile
import ScopedCss.Json.Scalar
import ScopedCss.Proofs.Json.Spelling

set_option autoImplicit false

/-!
# Numbers and other scalars

The grammar of a number leaves open where it ends: a reader takes as many characters as it can. So
what the grammar derives is read in full only where nothing follows that could belong to it.
-/

namespace ScopedCss.Json

/-! ## The grammar -/

structure IsDigits (text : Text) : Prop where
  ne_nil : text ≠ []
  isDigit : ∀ character ∈ text, character.isDigit = true

instance (text : Text) : Decidable (IsDigits text) :=
  decidable_of_iff (text ≠ [] ∧ text.all Char.isDigit = true)
    ⟨fun ⟨nonempty, digits⟩ => ⟨nonempty, List.all_eq_true.mp digits⟩,
      fun ⟨nonempty, digits⟩ => ⟨nonempty, List.all_eq_true.mpr digits⟩⟩

/-- The digits before the point. A leading zero stands alone. -/
structure IsWhole (text : Text) : Prop extends IsDigits text where
  zero : text.head? = some '0' → text.length = 1

inductive IsFraction : Text → Prop where
  | absent : IsFraction []
  | point {places : Text} (isDigits : IsDigits places) : IsFraction ('.' :: places)

inductive IsExponent : Text → Prop where
  | absent : IsExponent []
  | power {mark : Char} {sign places : Text} (isMark : mark = 'e' ∨ mark = 'E')
      (isSign : sign = [] ∨ sign = ['+'] ∨ sign = ['-']) (isDigits : IsDigits places) :
      IsExponent (mark :: (sign ++ places))

inductive IsUnsigned : Text → Prop where
  | parts {whole fraction exponent source : Text} (isWhole : IsWhole whole)
      (isFraction : IsFraction fraction) (isExponent : IsExponent exponent)
      (joined : source = whole ++ (fraction ++ exponent)) : IsUnsigned source

inductive IsScalar : Text → Prop where
  | word {source : Text} (listed : source ∈ ["null".toList, "true".toList, "false".toList]) :
      IsScalar source
  | positive {source : Text} (isUnsigned : IsUnsigned source) : IsScalar source
  | negative {source : Text} (isUnsigned : IsUnsigned source) : IsScalar ('-' :: source)
  | string {content source : Text} (spelling : Spelling .lenient content source) :
      IsScalar ('"' :: (source ++ ['"']))

/-- No digit follows. -/
def EndsDigits (rest : Text) : Prop := ∀ character ∈ rest.head?, character.isDigit = false

/-- Nothing follows that a number could go on with. -/
def EndsNumber (rest : Text) : Prop :=
  ∀ character ∈ rest.head?,
    character.isDigit = false ∧ character ≠ '.' ∧ character ≠ 'e' ∧ character ≠ 'E'

theorem EndsNumber.endsDigits {rest : Text} (ends : EndsNumber rest) : EndsDigits rest :=
  fun character first => (ends character first).1

/-! ## Digits -/

theorem digits_sound {care : Care} {text found rest : Text}
    (read : digits care text = .ok (found, rest)) : IsDigits found ∧ text = found ++ rest := by
  unfold digits at read
  split at read
  · cases read
  · rename_i some_digit
    simp only [Except.ok.injEq, Prod.mk.injEq] at read
    obtain ⟨rfl, rfl⟩ := read
    refine ⟨⟨by simpa using some_digit, ?_⟩, List.takeWhile_append_dropWhile.symm⟩
    exact fun character member => List.mem_takeWhile_imp member

theorem IsDigits.digits_append {found rest : Text} (isDigits : IsDigits found)
    (ends : EndsDigits rest) (care : Care) : digits care (found ++ rest) = .ok (found, rest) := by
  have stop : rest.takeWhile Char.isDigit = [] ∧ rest.dropWhile Char.isDigit = rest := by
    cases rest with
    | nil => exact ⟨rfl, rfl⟩
    | cons first later =>
        have notDigit := ends first rfl
        simp [notDigit]
  have taken : (found ++ rest).takeWhile Char.isDigit = found := by
    rw [List.takeWhile_append_of_pos isDigits.isDigit, stop.1, List.append_nil]
  have dropped : (found ++ rest).dropWhile Char.isDigit = rest := by
    rw [List.dropWhile_append_of_pos isDigits.isDigit, stop.2]
  have someDigit : found.isEmpty = false := by simpa using isDigits.ne_nil
  simp [digits, taken, dropped, someDigit]

theorem IsDigits.exists_cons {found : Text} (isDigits : IsDigits found) :
    ∃ first later, found = first :: later ∧ first.isDigit = true := by
  cases found with
  | nil => exact absurd rfl isDigits.ne_nil
  | cons first later => exact ⟨first, later, rfl, isDigits.isDigit first List.mem_cons_self⟩

theorem ne_of_isDigit {digit other : Char} (isDigit : digit.isDigit = true)
    (notDigit : other.isDigit = false) : digit ≠ other := by
  rintro rfl
  rw [isDigit] at notDigit
  cases notDigit

/-! ## Numbers -/

theorem wholeDigits_sound {care : Care} {text whole rest : Text}
    (read : wholeDigits care text = .ok (whole, rest)) : IsWhole whole ∧ text = whole ++ rest := by
  unfold wholeDigits at read
  obtain ⟨⟨found, after⟩, digitsRead, kept⟩ := bind_ok read
  dsimp only at kept
  split at kept
  · cases kept
  · rename_i alone
    cases kept
    obtain ⟨isDigits, joined⟩ := digits_sound digitsRead
    exact ⟨⟨isDigits, fun zero => not_not.mp fun longer => alone ⟨zero, longer⟩⟩, joined⟩

theorem IsWhole.wholeDigits_append {whole rest : Text} (isWhole : IsWhole whole)
    (ends : EndsDigits rest) (care : Care) :
    wholeDigits care (whole ++ rest) = .ok (whole, rest) := by
  have alone : ¬ (whole.head? = some '0' ∧ whole.length ≠ 1) :=
    fun longer => longer.2 (isWhole.zero longer.1)
  simp only [wholeDigits, isWhole.toIsDigits.digits_append ends care, bind, Except.bind]
  rw [if_neg alone]
  rfl

theorem fraction_sound {care : Care} {text places rest : Text}
    (read : fraction care text = .ok (places, rest)) :
    ∃ source, IsFraction source ∧ text = source ++ rest := by
  unfold fraction at read
  split at read
  · obtain ⟨isDigits, rfl⟩ := digits_sound read
    exact ⟨_, .point isDigits, rfl⟩
  · cases read
    exact ⟨[], .absent, rfl⟩

theorem IsFraction.fraction_append {source rest : Text} (isFraction : IsFraction source)
    (ends : EndsDigits rest) (noPoint : rest.head? ≠ some '.') (care : Care) :
    ∃ places, fraction care (source ++ rest) = .ok (places, rest) := by
  cases isFraction with
  | absent =>
      refine ⟨[], ?_⟩
      rw [List.nil_append, fraction]
      rintro later rfl
      exact noPoint rfl
  | point isDigits => exact ⟨_, isDigits.digits_append ends care⟩

theorem exists_sign (text : Text) :
    ∃ sign, (sign = [] ∨ sign = ['+'] ∨ sign = ['-']) ∧ text = sign ++ (exponentSign text).2 := by
  unfold exponentSign
  split
  · exact ⟨['+'], by simp, rfl⟩
  · exact ⟨['-'], by simp, rfl⟩
  · exact ⟨[], by simp, rfl⟩

theorem exponent_sound {care : Care} {text rest : Text} {power : Int}
    (read : exponent care text = .ok (power, rest)) :
    ∃ source, IsExponent source ∧ text = source ++ rest := by
  unfold exponent at read
  split at read
  · rename_i marked
    obtain ⟨⟨places, after⟩, digitsRead, kept⟩ := bind_ok read
    cases kept
    obtain ⟨isDigits, joined⟩ := digits_sound digitsRead
    cases text with
    | nil => simp at marked
    | cons mark signed =>
        obtain ⟨sign, isSign, split⟩ := exists_sign signed
        rw [List.tail_cons] at joined
        refine ⟨_, .power (by simpa using marked) isSign isDigits, ?_⟩
        rw [split, joined]
        simp
  · cases read
    exact ⟨[], .absent, rfl⟩

theorem IsExponent.exponent_append {source rest : Text} (isExponent : IsExponent source)
    (ends : EndsNumber rest) (care : Care) :
    ∃ power, exponent care (source ++ rest) = .ok (power, rest) := by
  cases isExponent with
  | absent =>
      have notMarked : ¬ (rest.head? = some 'e' ∨ rest.head? = some 'E') := by
        rintro (marked | marked)
        · exact (ends 'e' marked).2.2.1 rfl
        · exact (ends 'E' marked).2.2.2 rfl
      exact ⟨0, by rw [List.nil_append, exponent, if_neg notMarked]⟩
  | @power mark sign places isMark isSign isDigits =>
      obtain ⟨first, later, rfl, isDigit⟩ := isDigits.exists_cons
      have signRead : (exponentSign (sign ++ (first :: later) ++ rest)).2 =
          first :: later ++ rest := by
        rcases isSign with rfl | rfl | rfl
        · have notPlus : first ≠ '+' := ne_of_isDigit isDigit rfl
          have notMinus : first ≠ '-' := ne_of_isDigit isDigit rfl
          simp [exponentSign, notPlus, notMinus]
        · rfl
        · rfl
      have digitsRead := isDigits.digits_append ends.endsDigits care
      rw [← signRead] at digitsRead
      have marked : (mark :: (sign ++ first :: later) ++ rest).head? = some 'e' ∨
          (mark :: (sign ++ first :: later) ++ rest).head? = some 'E' := by
        simpa using isMark
      refine ⟨(exponentSign (sign ++ first :: later ++ rest)).1 * Number.ofDigits (first :: later), ?_⟩
      rw [exponent, if_pos marked, List.cons_append, List.tail_cons]
      simp only [digitsRead, bind, Except.bind, pure, Except.pure]

theorem numberScalar_sound {care : Care} {text rest : Text}
    (read : numberScalar care text = .ok rest) :
    ∃ source, IsUnsigned source ∧ text = source ++ rest := by
  unfold numberScalar number at read
  obtain ⟨⟨found, after⟩, numberRead, kept⟩ := bind_ok read
  obtain ⟨⟨whole, afterWhole⟩, wholeRead, numberRead⟩ := bind_ok numberRead
  obtain ⟨⟨places, afterPlaces⟩, fractionRead, numberRead⟩ := bind_ok numberRead
  obtain ⟨⟨power, afterPower⟩, exponentRead, numberRead⟩ := bind_ok numberRead
  cases numberRead
  dsimp only at kept
  split at kept
  · cases kept
  · cases kept
    obtain ⟨isWhole, rfl⟩ := wholeDigits_sound wholeRead
    obtain ⟨fraction, isFraction, rfl⟩ := fraction_sound fractionRead
    obtain ⟨exponent, isExponent, rfl⟩ := exponent_sound exponentRead
    exact ⟨_, .parts isWhole isFraction isExponent rfl, by simp⟩

theorem IsFraction.endsDigits_append {source rest : Text} (isFraction : IsFraction source)
    (ends : EndsDigits rest) : EndsDigits (source ++ rest) := by
  cases isFraction with
  | absent => exact ends
  | point isDigits =>
      intro character first
      cases first
      rfl

theorem IsExponent.endsDigits_append {source rest : Text} (isExponent : IsExponent source)
    (ends : EndsNumber rest) :
    EndsDigits (source ++ rest) ∧ (source ++ rest).head? ≠ some '.' := by
  cases isExponent with
  | absent => exact ⟨ends.endsDigits, fun point => (ends '.' point).2.1 rfl⟩
  | power isMark isSign isDigits =>
      rcases isMark with rfl | rfl
      · exact ⟨fun character first => by cases first; rfl, by simp⟩
      · exact ⟨fun character first => by cases first; rfl, by simp⟩

theorem IsUnsigned.numberScalar_append {source rest : Text} (isUnsigned : IsUnsigned source)
    (ends : EndsNumber rest) : numberScalar .lenient (source ++ rest) = .ok rest := by
  cases isUnsigned with
  | @parts whole fraction exponent _ isWhole isFraction isExponent joined =>
      subst joined
      obtain ⟨power, exponentRead⟩ := isExponent.exponent_append ends .lenient
      obtain ⟨exponentEnds, noPoint⟩ := isExponent.endsDigits_append ends
      obtain ⟨places, fractionRead⟩ := isFraction.fraction_append exponentEnds noPoint .lenient
      have wholeRead := isWhole.wholeDigits_append (isFraction.endsDigits_append exponentEnds) .lenient
      simp only [List.append_assoc]
      simp [numberScalar, number, wholeRead, fractionRead, exponentRead, bind, Except.bind, pure,
        Except.pure]

theorem IsUnsigned.exists_cons {source : Text} (isUnsigned : IsUnsigned source) :
    ∃ first later, source = first :: later ∧ first.isDigit = true := by
  cases isUnsigned with
  | parts isWhole _ _ joined =>
      obtain ⟨first, later, rfl, isDigit⟩ := isWhole.toIsDigits.exists_cons
      exact ⟨first, _, joined, isDigit⟩

/-! ## Scalars -/

theorem scalar_sound {text rest : Text} (read : scalar .lenient text = .ok rest) :
    ∃ source, IsScalar source ∧ text = source ++ rest := by
  unfold scalar at read
  split at read
  · cases read
  · exact ⟨"null".toList, .word (by simp), by rw [word_eq_ok_iff.mp read]; rfl⟩
  · exact ⟨"true".toList, .word (by simp), by rw [word_eq_ok_iff.mp read]; rfl⟩
  · exact ⟨"false".toList, .word (by simp), by rw [word_eq_ok_iff.mp read]; rfl⟩
  · obtain ⟨⟨content, after⟩, quotedRead, kept⟩ := bind_ok read
    cases kept
    obtain ⟨source, spelling, rfl⟩ := quoted_eq_ok_iff.mp quotedRead
    exact ⟨_, .string spelling, by simp⟩
  · obtain ⟨source, isUnsigned, rfl⟩ := numberScalar_sound read
    exact ⟨_, .negative isUnsigned, rfl⟩
  · split at read
    · obtain ⟨source, isUnsigned, joined⟩ := numberScalar_sound read
      exact ⟨source, .positive isUnsigned, joined⟩
    · cases read

theorem scalar_of_isDigit {character : Char} (isDigit : character.isDigit = true) (care : Care)
    (rest : Text) : scalar care (character :: rest) = numberScalar care (character :: rest) := by
  rw [scalar]
  · rw [if_pos isDigit]
  · exact ne_of_isDigit isDigit rfl
  · exact ne_of_isDigit isDigit rfl
  · exact ne_of_isDigit isDigit rfl
  · exact ne_of_isDigit isDigit rfl
  · exact ne_of_isDigit isDigit rfl

theorem IsScalar.scalar_append {source rest : Text} (isScalar : IsScalar source)
    (ends : EndsNumber rest) : scalar .lenient (source ++ rest) = .ok rest := by
  cases isScalar with
  | word listed =>
      simp only [List.mem_cons, List.not_mem_nil, or_false] at listed
      rcases listed with rfl | rfl | rfl
      · exact word_eq_ok_iff.mpr rfl
      · exact word_eq_ok_iff.mpr rfl
      · exact word_eq_ok_iff.mpr rfl
  | positive isUnsigned =>
      obtain ⟨first, later, rfl, isDigit⟩ := isUnsigned.exists_cons
      rw [List.cons_append, scalar_of_isDigit isDigit]
      exact isUnsigned.numberScalar_append ends
  | negative isUnsigned => exact isUnsigned.numberScalar_append ends
  | @string content source spelling =>
      have quotedRead := quoted_eq_ok_iff.mpr ⟨source, spelling, Eq.refl (source ++ '"' :: rest)⟩
      simp [scalar, quotedRead, bind, Except.bind, pure, Except.pure]

end ScopedCss.Json
