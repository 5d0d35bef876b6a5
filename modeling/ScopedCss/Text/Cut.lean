import ScopedCss.Text.Blank

set_option autoImplicit false

/-!
# Cutting a text at a character

`cutAt?` cuts at the first occurrence of a mark. It is inverse to writing the two parts around the
mark, as long as the part before holds no mark. `afterStart?_eq_some_iff` says the same of cutting
off a given start.
-/

namespace ScopedCss.Text

/-- The text before the first `mark` and the text after it. -/
def cutAt? (mark : Char) : Text → Option (Text × Text)
  | [] => none
  | character :: rest =>
      if character = mark then some ([], rest)
      else (cutAt? mark rest).map fun parts => (character :: parts.1, parts.2)

theorem cutAt?_eq_some_iff {mark : Char} {text before after : Text} :
    cutAt? mark text = some (before, after) ↔ text = before ++ mark :: after ∧ mark ∉ before := by
  induction text generalizing before with
  | nil => simp [cutAt?]
  | cons character rest ih =>
      by_cases found : character = mark
      · subst found
        cases before with
        | nil => simp [cutAt?, eq_comm]
        | cons first before =>
            simp only [cutAt?, ↓reduceIte, Option.some.injEq, Prod.mk.injEq, List.nil_eq,
              reduceCtorEq, false_and, List.cons_append, List.cons.injEq, List.mem_cons, not_or,
              false_iff, not_and]
            intro same
            exact absurd same.1
      · cases before with
        | nil => simp [cutAt?, found]
        | cons first before =>
            simp only [cutAt?, found, ↓reduceIte, Option.map_eq_some_iff, Prod.exists,
              Prod.mk.injEq, List.cons.injEq, List.cons_append, List.mem_cons, not_or]
            constructor
            · rintro ⟨inner, outer, cut, ⟨rfl, rfl⟩, rfl⟩
              obtain ⟨rfl, absent⟩ := ih.mp cut
              exact ⟨⟨rfl, rfl⟩, fun same => found same.symm, absent⟩
            · rintro ⟨⟨rfl, rfl⟩, _, absent⟩
              exact ⟨before, after, ih.mpr ⟨rfl, absent⟩, ⟨rfl, rfl⟩, rfl⟩

theorem cutAt?_eq_none_iff {mark : Char} {text : Text} :
    cutAt? mark text = none ↔ mark ∉ text := by
  induction text with
  | nil => simp [cutAt?]
  | cons character rest ih =>
      by_cases found : character = mark
      · simp [cutAt?, found]
      · have distinct : mark ≠ character := fun same => found same.symm
        simp [cutAt?, found, distinct, ih]

/-- What follows `start` in a text that starts with it. -/
def afterStart? (start text : Text) : Option Text :=
  if start.isPrefixOf text then some (text.drop start.length) else none

theorem afterStart?_eq_some_iff {start text rest : Text} :
    afterStart? start text = some rest ↔ text = start ++ rest := by
  constructor
  · intro found
    unfold afterStart? at found
    split at found
    · rename_i starts
      cases found
      exact (List.prefix_iff_eq_append.mp (List.isPrefixOf_iff_prefix.mp starts)).symm
    · cases found
  · intro joined
    subst joined
    have starts : start.isPrefixOf (start ++ rest) = true :=
      List.isPrefixOf_iff_prefix.mpr (List.prefix_append start rest)
    simp [afterStart?, starts]

end ScopedCss.Text
