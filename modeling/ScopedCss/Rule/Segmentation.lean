import ScopedCss.Rule.Occurrence

set_option autoImplicit false

/-!
# Segmentation of a text

`Segmentation.of` cuts a whole text into the rules that occur in it and the gaps between them. The
pieces put together are the text again (`text_of`). The rules alone are `Rule.allIn`.
-/

namespace ScopedCss

/-- A text cut into occurrences, each with the gap before it, and what is left after the last. -/
structure Segmentation where
  segments : List (Text × Occurrence)
  leftover : Text

namespace Segmentation

/-- Cuts a text from left to right. Each search starts where the occurrence before it ended. -/
def of (text : Text) : Segmentation :=
  match _search : Occurrence.next? text with
  | none => ⟨[], text⟩
  | some found =>
      let later := of found.rest
      ⟨(found.gap, found.occurrence) :: later.segments, later.leftover⟩
termination_by text.length
decreasing_by exact Occurrence.next?_rest_length_lt _search

/-- The text that a segmentation cuts. -/
def text (segmentation : Segmentation) : Text :=
  (segmentation.segments.map fun segment => segment.1 ++ segment.2.text).flatten ++
    segmentation.leftover

def rules (segmentation : Segmentation) : List Rule :=
  segmentation.segments.map fun segment => segment.2.rule

theorem of_eq_of_next?_eq_none {text : Text} (search : Occurrence.next? text = none) :
    of text = ⟨[], text⟩ := by
  rw [of]
  split <;> simp_all

theorem of_eq_of_next?_eq_some {text : Text} {found : Occurrence.Found}
    (search : Occurrence.next? text = some found) :
    of text = ⟨(found.gap, found.occurrence) :: (of found.rest).segments,
      (of found.rest).leftover⟩ := by
  rw [of]
  split <;> simp_all

/-- Nothing is lost and nothing is put in. -/
theorem text_of (text : Text) : (of text).text = text := by
  fun_induction of text with
  | case1 text search => rfl
  | case2 text found search later ih =>
      rw [Occurrence.next?_eq_append search]
      simp only [Segmentation.text, List.map_cons, List.flatten_cons, List.append_assoc]
      simp only [Segmentation.text] at ih
      rw [ih]

end Segmentation

/-- The rules of a text, in order, with their selectors and declarations trimmed. -/
def Rule.allIn (text : Text) : List Rule := (Segmentation.of text).rules

end ScopedCss
