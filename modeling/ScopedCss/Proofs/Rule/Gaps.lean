import ScopedCss.Proofs.Rule.Position

set_option autoImplicit false

/-!
# Gaps between rules

The segmentation of a text drops what stands between the rules that were found. No complete rule is
dropped with it: a search passes over a position only where nothing can be read, and in front of an
opening brace whose content is closed something can be read.
-/

namespace ScopedCss

/-- A complete rule stands in the text: a character that selectors may end with, an opening brace,
and the content up to its closing brace. -/
def HoldsRule (text : Text) : Prop :=
  ∃ (last : Char) (content : Text), last ≠ '@' ∧ last ≠ '\x7d' ∧ content ≠ [] ∧ '\x7d' ∉ content ∧
    last :: '\x7b' :: (content ++ ['\x7d']) <:+: text

namespace Occurrence

theorem exists_at?_ne_none {text : Text} (holds : HoldsRule text) (later : Text) :
    ∃ position < text.length, at? ((text ++ later).drop position) ≠ none := by
  obtain ⟨last, content, notAt, notClose, nonempty, closeAbsent, before, after, rfl⟩ := holds
  refine ⟨before.length, by simp, ?_⟩
  have fromLast : (before ++ last :: '\x7b' :: (content ++ ['\x7d']) ++ after ++ later).drop
      before.length = [last] ++ '\x7b' :: (content ++ '\x7d' :: (after ++ later)) := by
    simp
  rw [fromLast]
  exact at?_ne_none_of_bare?_ne_none
    (bare?_ne_none (by simp) (by simpa using notAt.symm) (by simpa using notClose.symm)
      nonempty closeAbsent _)

theorem not_holdsRule_of_next?_eq_none {text : Text} (search : next? text = none) :
    ¬ HoldsRule text := by
  intro holds
  obtain ⟨position, _, readable⟩ := exists_at?_ne_none holds []
  rw [List.append_nil] at readable
  exact readable (Rule.at?_drop_eq_none search position)

theorem not_holdsRule_gap {text : Text} {found : Found} (search : next? text = some found) :
    ¬ HoldsRule found.gap := by
  intro holds
  obtain ⟨start, gap, _, nothing⟩ := Rule.exists_position search
  obtain ⟨position, within, readable⟩ :=
    exists_at?_ne_none holds (found.occurrence.text ++ found.rest)
  rw [← List.append_assoc, ← next?_eq_append search] at readable
  have shorter : found.gap.length ≤ start := by
    rw [gap]
    exact List.length_take_le start text
  exact readable (nothing position (by omega))

end Occurrence

namespace Segmentation

/-- What stands before, between and behind the occurrences. -/
def gaps (segmentation : Segmentation) : List Text :=
  segmentation.segments.map Prod.fst ++ [segmentation.leftover]

theorem not_holdsRule_of_mem_gaps {text gap : Text} (member : gap ∈ (of text).gaps) :
    ¬ HoldsRule gap := by
  induction text using of.induct with
  | case1 text search =>
      rw [of_eq_of_next?_eq_none search] at member
      cases member with
      | head => exact Occurrence.not_holdsRule_of_next?_eq_none search
      | tail _ later => cases later
  | case2 text found search ih =>
      rw [of_eq_of_next?_eq_some search] at member
      cases member with
      | head => exact Occurrence.not_holdsRule_gap search
      | tail _ later => exact ih later

/-- Every text is made up of the rules that are found in it, in their order and as they stand there,
and of gaps, and no gap holds a complete rule. -/
theorem of_partitions (text : Text) :
    (of text).text = text ∧
      Rule.allIn text = (of text).segments.map (fun segment =>
        ⟨segment.2.media, Text.trim segment.2.selectors, Text.trim segment.2.declarations⟩) ∧
      (∀ segment ∈ (of text).segments, segment.2.WellFormed) ∧
      ∀ gap ∈ (of text).gaps, ¬ HoldsRule gap :=
  ⟨text_of text, rfl, fun _ member => wellFormed_of_mem_segments member,
    fun _ member => not_holdsRule_of_mem_gaps member⟩

end Segmentation

end ScopedCss
