import ScopedCss.Text.Pieces

set_option autoImplicit false

/-!
# Selectors

A selector list is separated by `,`. Scoping puts each of its selectors under a wrapper selector:
a selector of the whole page becomes the wrapper itself, any other a descendant of it.

The cut is flat: a `,` inside parentheses or quotes separates as well.
-/

namespace ScopedCss.Selector

/-- The selectors that stand for the whole page, in lower case. -/
def pageSelectors : List Text := ["body".toList, "html".toList, "*".toList]

/-- Whether a selector stands for the whole page, in any letter case. The selector is taken as it
stands, blanks included. ASCII case is enough: no other character has a lower-case form among the
letters of the page selectors. -/
def isPageSelector (selector : Text) : Bool := pageSelectors.contains (selector.map Char.toLower)

def scope (wrapper selector : Text) : Text :=
  if isPageSelector selector then wrapper else wrapper ++ ' ' :: selector

/-- The selectors of a list, trimmed, without the empty ones. -/
def list (selectors : Text) : List Text := Text.pieces ',' selectors

def printList (selectors : List Text) : Text := List.intercalate ", ".toList selectors

/-- The list `selectors` with every selector put under `wrapper`. -/
def scopeAll (wrapper selectors : Text) : Text := printList ((list selectors).map (scope wrapper))

theorem isPageSelector_iff {selector : Text} :
    isPageSelector selector = true ↔ selector.map Char.toLower ∈ pageSelectors := by
  simp [isPageSelector]

end ScopedCss.Selector
