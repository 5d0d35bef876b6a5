import Mathlib.Data.List.DropRight
import ScopedCss.Text.Blank

set_option autoImplicit false

/-!
# Laws of trimming

A text is blank text, its trimmed part and blank text again (`exists_blank_trim_blank`). Blank text
put around a text is trimmed away (`trim_append_append`), and a text that has no white space at
either end is its own trim (`trim_eq_self_iff`).
-/

namespace ScopedCss.Text

/-- A text of nothing but white space. -/
def Blank (text : Text) : Prop := ∀ character ∈ text, isBlank character = true

instance (text : Text) : Decidable (Blank text) :=
  decidable_of_iff (text.all isBlank = true) List.all_eq_true

theorem blank_nil : Blank [] := by
  intro character member
  cases member

theorem blank_space : Blank [' '] := by decide

theorem blank_lineBreak : Blank ['\n'] := by decide

theorem Blank.append {first second : Text} (firstBlank : Blank first) (secondBlank : Blank second) :
    Blank (first ++ second) := by
  intro character member
  cases List.mem_append.mp member with
  | inl inFirst => exact firstBlank character inFirst
  | inr inSecond => exact secondBlank character inSecond

theorem Blank.not_mem {text : Text} (blank : Blank text) {character : Char}
    (solid : isBlank character = false) : character ∉ text := by
  intro member
  rw [blank character member] at solid
  cases solid

theorem not_blank_of_mem {character : Char} (solid : isBlank character = false) {text : Text}
    (member : character ∈ text) : ¬ Blank text :=
  fun blank => blank.not_mem solid member

/-- White space has no case. -/
theorem toLower_eq_self_of_isBlank {character : Char} (blank : isBlank character = true) :
    character.toLower = character := by
  have outside : ¬ (character.val ≥ 'A'.val ∧ character.val ≤ 'Z'.val) := by
    simp only [isBlank, Bool.or_eq_true, Bool.and_eq_true, decide_eq_true_eq, beq_iff_eq,
      Char.toNat] at blank
    simp only [ge_iff_le, UInt32.le_iff_toNat_le]
    intro letter
    have lower : 65 ≤ character.val.toNat := letter.1
    have upper : character.val.toNat ≤ 90 := letter.2
    omega
  exact dif_neg outside

/-! No mark of a stylesheet is white space. -/

@[simp] theorem isBlank_comma : isBlank ',' = false := by decide

@[simp] theorem isBlank_semicolon : isBlank ';' = false := by decide

@[simp] theorem isBlank_at : isBlank '@' = false := by decide

@[simp] theorem isBlank_open : isBlank '\x7b' = false := by decide

@[simp] theorem isBlank_close : isBlank '\x7d' = false := by decide

theorem trimStart_append_of_blank {lead : Text} (blank : Blank lead) (text : Text) :
    trimStart (lead ++ text) = trimStart text :=
  List.dropWhile_append_of_pos blank

theorem trimEnd_append_of_blank {tail : Text} (blank : Blank tail) (text : Text) :
    trimEnd (text ++ tail) = trimEnd text := by
  have reversed : ∀ character ∈ tail.reverse, isBlank character = true := by
    intro character member
    exact blank character (List.mem_reverse.mp member)
  simp only [trimEnd, List.reverse_append, List.dropWhile_append_of_pos reversed]

theorem trimStart_eq_nil_iff {text : Text} : trimStart text = [] ↔ Blank text :=
  List.dropWhile_eq_nil_iff

/-- A text that starts with white space or ends with it loses it, so these are the only texts that
trimming leaves as they are. -/
theorem trim_eq_self_iff {text : Text} :
    trim text = text ↔ (∀ character ∈ text.head?, isBlank character = false) ∧
      ∀ character ∈ text.getLast?, isBlank character = false := by
  cases text with
  | nil => simp [trim, trimStart, trimEnd]
  | cons first rest =>
      by_cases solid : isBlank first = false
      · rw [trim, trimStart_cons_of_not_blank solid]
        have ending := List.rdropWhile_eq_self_iff (p := isBlank) (l := first :: rest)
        rw [show trimEnd (first :: rest) = (first :: rest).rdropWhile isBlank from rfl, ending]
        simp [solid, List.getLast?_eq_some_getLast]
      · have blank : isBlank first = true := by simpa using solid
        rw [trim, trimStart_cons_of_blank blank]
        constructor
        · intro same
          have shorter : (trimEnd (trimStart rest)).length ≤ rest.length :=
            Nat.le_trans (List.rdropWhile_prefix isBlank _).length_le
              (List.dropWhile_suffix isBlank).length_le
          rw [same] at shorter
          exact absurd shorter (by simp)
        · intro ends
          exact absurd (ends.1 first rfl) solid

theorem exists_blank_trim_blank (text : Text) :
    ∃ lead tail, Blank lead ∧ Blank tail ∧ text = lead ++ trim text ++ tail := by
  refine ⟨text.takeWhile isBlank, (trimStart text).rtakeWhile isBlank, ?_, ?_, ?_⟩
  · intro character member
    exact List.mem_takeWhile_imp member
  · intro character member
    exact List.mem_rtakeWhile_imp member
  · have ending : trim text ++ (trimStart text).rtakeWhile isBlank = trimStart text :=
      List.rdropWhile_append_rtakeWhile
    rw [List.append_assoc, ending]
    exact List.takeWhile_append_dropWhile.symm

theorem trimStart_append_of_not_blank {lead : Text} (solid : ¬ Blank lead) (text : Text) :
    trimStart (lead ++ text) = trimStart lead ++ text := by
  have kept : (lead.dropWhile isBlank).isEmpty = false := by
    rwa [Bool.eq_false_iff, Ne, List.isEmpty_iff, List.dropWhile_eq_nil_iff]
  simp [trimStart, List.dropWhile_append, kept]

theorem trim_append_append {lead tail : Text} (leadBlank : Blank lead) (tailBlank : Blank tail)
    (text : Text) : trim (lead ++ text ++ tail) = trim text := by
  rw [List.append_assoc, trim, trimStart_append_of_blank leadBlank, trim]
  by_cases blank : Blank text
  · have joined : trimStart (text ++ tail) = [] :=
      trimStart_eq_nil_iff.mpr (blank.append tailBlank)
    rw [joined, trimStart_eq_nil_iff.mpr blank]
  · rw [trimStart_append_of_not_blank blank, trimEnd_append_of_blank tailBlank]

theorem trim_append_left {lead : Text} (blank : Blank lead) (text : Text) :
    trim (lead ++ text) = trim text := by
  simpa using trim_append_append blank blank_nil text

theorem trim_append_right {tail : Text} (blank : Blank tail) (text : Text) :
    trim (text ++ tail) = trim text := by
  simpa using trim_append_append blank_nil blank text

theorem trim_eq_nil_iff {text : Text} : trim text = [] ↔ Blank text := by
  constructor
  · intro emptied
    obtain ⟨lead, tail, leadBlank, tailBlank, parts⟩ := exists_blank_trim_blank text
    rw [emptied, List.append_nil] at parts
    rw [parts]
    exact leadBlank.append tailBlank
  · intro blank
    rw [trim, trimStart_eq_nil_iff.mpr blank]
    rfl

theorem trim_trim (text : Text) : trim (trim text) = trim text := by
  obtain ⟨lead, tail, leadBlank, tailBlank, parts⟩ := exists_blank_trim_blank text
  conv => rhs; rw [parts]
  exact (trim_append_append leadBlank tailBlank _).symm

theorem trimEnd_append_of_not_blank {tail : Text} (solid : ¬ Blank tail) (text : Text) :
    trimEnd (text ++ tail) = text ++ trimEnd tail := by
  have kept : (tail.reverse.dropWhile isBlank).isEmpty = false := by
    rw [Bool.eq_false_iff, Ne, List.isEmpty_iff, List.dropWhile_eq_nil_iff]
    intro blank
    exact solid fun character member => blank character (List.mem_reverse.mpr member)
  simp [trimEnd, List.dropWhile_append, kept]

theorem trim_append_append_of_not_blank {lead tail : Text} (leadSolid : ¬ Blank lead)
    (tailSolid : ¬ Blank tail) (text : Text) :
    trim (lead ++ text ++ tail) = trimStart lead ++ text ++ trimEnd tail := by
  rw [List.append_assoc, trim, trimStart_append_of_not_blank leadSolid, ← List.append_assoc,
    trimEnd_append_of_not_blank tailSolid]

theorem trim_cons_of_not_blank {character : Char} (solid : isBlank character = false)
    (text : Text) : trim (character :: text) = character :: trimEnd text := by
  rw [trim, trimStart_cons_of_not_blank solid, trimEnd, List.reverse_cons, List.dropWhile_append]
  split
  · rename_i emptied
    rw [List.isEmpty_iff] at emptied
    simp [trimEnd, emptied, solid]
  · simp [trimEnd]

theorem trim_append_singleton {character : Char} (solid : isBlank character = false)
    (text : Text) : trim (text ++ [character]) = trimStart text ++ [character] := by
  have start : trimStart (text ++ [character]) = trimStart text ++ [character] := by
    rw [trimStart, List.dropWhile_append]
    split
    · rename_i emptied
      rw [List.isEmpty_iff] at emptied
      simp [trimStart, emptied, solid]
    · rfl
  rw [trim, start, trimEnd_concat_of_not_blank solid]

theorem filter_trim {keep : Char → Bool}
    (drop : ∀ character, isBlank character = true → keep character = false) (text : Text) :
    (trim text).filter keep = text.filter keep := by
  have dropped : ∀ {blank : Text}, Blank blank → blank.filter keep = [] := by
    intro blank blanks
    rw [List.filter_eq_nil_iff]
    intro character member
    simp [drop character (blanks character member)]
  obtain ⟨lead, tail, leadBlank, tailBlank, parts⟩ := exists_blank_trim_blank text
  conv => rhs; rw [parts]
  simp [dropped leadBlank, dropped tailBlank]

theorem trim_infix_self (text : Text) : trim text <:+: text := by
  obtain ⟨lead, tail, _, _, parts⟩ := exists_blank_trim_blank text
  exact ⟨lead, tail, parts.symm⟩

theorem trim_subset (text : Text) : trim text ⊆ text := (trim_infix_self text).subset

theorem mem_trim {character : Char} (solid : isBlank character = false) {text : Text}
    (member : character ∈ text) : character ∈ trim text := by
  obtain ⟨lead, tail, leadBlank, tailBlank, parts⟩ := exists_blank_trim_blank text
  rw [parts] at member
  simpa [leadBlank.not_mem solid, tailBlank.not_mem solid] using member

end ScopedCss.Text
