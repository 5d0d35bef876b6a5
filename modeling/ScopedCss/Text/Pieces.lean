import ScopedCss.Text.Blank

set_option autoImplicit false

/-!
# Separated lists

A separated list is cut at every occurrence of its separator, wherever that stands. Each piece is
trimmed and the empty ones are dropped.
-/

namespace ScopedCss.Text

/-- The non-empty trimmed pieces between the separators, in order. -/
def pieces (separator : Char) (text : Text) : List Text :=
  ((text.splitOn separator).map trim).filter fun piece => !piece.isEmpty

/-- Whether `part` occurs in the text as a run of adjacent characters. -/
def hasPart (part : Text) : Text → Bool
  | [] => part.isEmpty
  | character :: rest => part.isPrefixOf (character :: rest) || hasPart part rest

theorem hasPart_iff_infix {part text : Text} : hasPart part text = true ↔ part <:+: text := by
  induction text with
  | nil => simp [hasPart]
  | cons character rest ih =>
      simp [hasPart, ih, List.infix_cons_iff]

end ScopedCss.Text
