import Mathlib.Data.List.DropRight
import ScopedCss.Json.Basic

set_option autoImplicit false

/-!
# White space and marks

Where a reader skips white space, it makes no difference how much of it there is.
-/

namespace ScopedCss.Json

/-- White space, as much as there may be. -/
def Space (text : Text) : Prop := ∀ character ∈ text, isSpace character = true

instance (text : Text) : Decidable (Space text) :=
  decidable_of_iff (text.all isSpace = true) List.all_eq_true

theorem space_nil : Space [] := nofun

theorem Space.append {left right : Text} (leftSpace : Space left) (rightSpace : Space right) :
    Space (left ++ right) := by
  intro character member
  rcases List.mem_append.mp member with inLeft | inRight
  · exact leftSpace character inLeft
  · exact rightSpace character inRight

theorem Space.skipSpace_append {lead : Text} (isSpace : Space lead) (text : Text) :
    skipSpace (lead ++ text) = skipSpace text :=
  List.dropWhile_append_of_pos isSpace

theorem skipSpace_cons {character : Char} (solid : isSpace character = false) (text : Text) :
    skipSpace (character :: text) = character :: text := by
  simp [skipSpace, solid]

theorem Space.skipSpace_append_cons {lead : Text} {character : Char} (space : Space lead)
    (solid : isSpace character = false) (text : Text) :
    skipSpace (lead ++ character :: text) = character :: text := by
  rw [space.skipSpace_append, skipSpace_cons solid]

theorem exists_space_append_skipSpace (text : Text) :
    ∃ lead, Space lead ∧ text = lead ++ skipSpace text :=
  ⟨text.takeWhile isSpace, fun _ member => List.mem_takeWhile_imp member,
    (List.takeWhile_append_dropWhile).symm⟩

theorem exists_space_of_skipSpace_eq {text suffix : Text} (skipped : skipSpace text = suffix) :
    ∃ lead, Space lead ∧ text = lead ++ suffix :=
  skipped ▸ exists_space_append_skipSpace text

theorem skipSpace_skipSpace (text : Text) : skipSpace (skipSpace text) = skipSpace text :=
  List.dropWhile_idempotent isSpace text

theorem skipSpace_eq_nil_iff {text : Text} : skipSpace text = [] ↔ Space text :=
  List.dropWhile_eq_nil_iff

theorem mark_eq_ok_iff {expected : Char} (solid : isSpace expected = false) {text rest : Text} :
    mark expected text = .ok rest ↔ ∃ lead, Space lead ∧ text = lead ++ expected :: rest := by
  rw [mark, word_eq_ok_iff]
  constructor
  · intro skipped
    exact exists_space_of_skipSpace_eq skipped
  · rintro ⟨lead, space, rfl⟩
    exact space.skipSpace_append_cons solid rest

theorem mark_skipSpace (expected : Char) (text : Text) :
    mark expected (skipSpace text) = mark expected text := by
  rw [mark, skipSpace_skipSpace, mark]

end ScopedCss.Json
