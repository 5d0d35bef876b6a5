import Mathlib.Data.List.Basic
import ScopedCss.Text.Blank

set_option autoImplicit false

/-!
# Positions in a text

Positions count characters from the start of the text, and `text.extract first last` is the stretch
from `first` up to `last`, without the character there. What stands at positions from `start` on is
what stands in `text.drop start` (`getElem?_of_drop_eq`, `extract_of_drop_eq`).
-/

namespace ScopedCss.Text

variable {text before middle after : Text} {start first last position : Nat} {mark : Char}

theorem getElem?_of_drop_eq (split : text.drop start = before ++ after) (index : Nat) :
    text[start + before.length + index]? = after[index]? := by
  have shifted := congrArg (fun suffix : Text => suffix[before.length + index]?) split
  simpa [List.getElem?_append_right, Nat.add_assoc] using shifted

theorem getElem?_of_drop_eq_cons (split : text.drop start = mark :: after) :
    text[start]? = some mark := by
  simpa using congrArg List.head? split

theorem extract_of_drop_eq (split : text.drop start = before ++ (middle ++ after)) :
    text.extract (start + before.length) (start + before.length + middle.length) = middle := by
  have dropped : text.drop (start + before.length) = middle ++ after := by
    rw [← List.drop_drop, split, List.drop_left]
  rw [List.extract_eq_take_drop, dropped, Nat.add_sub_cancel_left, List.take_left]

theorem drop_eq_extract_append (le : first ≤ last) :
    text.drop first = text.extract first last ++ text.drop last := by
  have dropped : text.drop last = (text.drop first).drop (last - first) := by
    rw [List.drop_drop, Nat.add_sub_cancel' le]
  rw [List.extract_eq_take_drop, dropped, List.take_append_drop]

theorem drop_eq_cons (stands : text[position]? = some mark) :
    text.drop position = mark :: text.drop (position + 1) := by
  obtain ⟨inside, rfl⟩ := List.getElem?_eq_some_iff.mp stands
  exact List.drop_eq_getElem_cons inside

theorem mem_extract_iff {character : Char} :
    character ∈ text.extract first last ↔
      ∃ position, first ≤ position ∧ position < last ∧ text[position]? = some character := by
  rw [List.extract_eq_take_drop, List.mem_iff_getElem?]
  constructor
  · intro indexed
    obtain ⟨index, stands⟩ := indexed
    rw [List.getElem?_take] at stands
    split at stands
    · rw [List.getElem?_drop] at stands
      exact ⟨first + index, by omega, by omega, stands⟩
    · cases stands
  · intro placed
    obtain ⟨position, firstLe, lt, stands⟩ := placed
    refine ⟨position - first, ?_⟩
    rw [List.getElem?_take, if_pos (by omega), List.getElem?_drop, Nat.add_sub_cancel' firstLe]
    exact stands

theorem length_extract (le : last ≤ text.length) : (text.extract first last).length = last - first := by
  rw [List.extract_eq_take_drop, List.length_take, List.length_drop]
  omega

theorem extract_eq_append_cons (firstLe : first ≤ position) (lt : position < last)
    (stands : text[position]? = some mark) :
    text.extract first last =
      text.extract first position ++ mark :: text.extract (position + 1) last := by
  obtain ⟨inside, _⟩ := List.getElem?_eq_some_iff.mp stands
  have count : last - first = (text.extract first position).length + (last - position) := by
    rw [length_extract (Nat.le_of_lt inside)]
    omega
  rw [List.extract_eq_take_drop, drop_eq_extract_append firstLe, drop_eq_cons stands, count,
    List.take_length_add_append, show last - position = last - (position + 1) + 1 by omega,
    List.take_succ_cons, ← List.extract_eq_take_drop]

theorem mem_of_drop_eq (split : text.drop start = before ++ after) (startLe : start ≤ position)
    (lt : position < start + before.length) (stands : text[position]? = some mark) :
    mark ∈ before := by
  have shifted := congrArg (fun suffix : Text => suffix[position - start]?) split
  simp only [List.getElem?_drop, Nat.add_sub_cancel' startLe] at shifted
  rw [List.getElem?_append_left (by omega), stands] at shifted
  exact List.mem_of_getElem? shifted.symm

/-- The first `mark` from `start` on stands at `position`. -/
structure IsFirst (text : Text) (mark : Char) (start position : Nat) : Prop where
  start_le : start ≤ position
  stands : text[position]? = some mark
  least : ∀ earlier, start ≤ earlier → earlier < position → text[earlier]? ≠ some mark

theorem IsFirst.drop_eq (isFirst : IsFirst text mark start position) :
    text.drop start = text.extract start position ++ mark :: text.drop (position + 1) := by
  rw [drop_eq_extract_append isFirst.start_le, drop_eq_cons isFirst.stands]

theorem IsFirst.not_mem_extract (isFirst : IsFirst text mark start position) :
    mark ∉ text.extract start position := by
  rw [mem_extract_iff]
  intro member
  obtain ⟨earlier, startLe, lt, stands⟩ := member
  exact isFirst.least earlier startLe lt stands

theorem isFirst_of_drop_eq (split : text.drop start = before ++ mark :: after)
    (absent : mark ∉ before) : IsFirst text mark start (start + before.length) := by
  refine ⟨by omega, ?_, ?_⟩
  · simpa using getElem?_of_drop_eq split 0
  · intro earlier startLe lt stands
    exact absent (mem_of_drop_eq split startLe lt stands)

end ScopedCss.Text
