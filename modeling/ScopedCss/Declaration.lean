import ScopedCss.Text.Pieces

set_option autoImplicit false

/-!
# Declarations

A declaration list is separated by `;`. Making it important gives every declaration the marker
`!important`, so that it wins over the styles of the page that the rules are put into.

The cut is flat: a `;` inside parentheses or quotes separates as well, and a marker in another
letter case does not count.
-/

namespace ScopedCss.Declaration

/-- What gives a declaration precedence over the page's own. -/
def importantMark : Text := "!important".toList

/-- A declaration that has the marker anywhere needs no second one. -/
def isImportant (declaration : Text) : Bool := Text.hasPart importantMark declaration

def makeImportant (declaration : Text) : Text :=
  if isImportant declaration then declaration else declaration ++ ' ' :: importantMark

/-- The declarations of a list, trimmed, without the empty ones. -/
def list (body : Text) : List Text := Text.pieces ';' body

/-- A printed list ends with a semicolon, also when it holds no declaration. -/
def printList (declarations : List Text) : Text :=
  List.intercalate "; ".toList declarations ++ [';']

/-- The list `body` with every declaration made important. -/
def makeAllImportant (body : Text) : Text := printList ((list body).map makeImportant)

theorem isImportant_iff {declaration : Text} :
    isImportant declaration = true ↔ importantMark <:+: declaration :=
  Text.hasPart_iff_infix

theorem isImportant_makeImportant (declaration : Text) :
    isImportant (makeImportant declaration) = true := by
  by_cases present : isImportant declaration = true
  · simp [makeImportant, present]
  · rw [makeImportant, if_neg present, isImportant_iff]
    exact ⟨declaration ++ [' '], [], by simp⟩

theorem makeImportant_idem (declaration : Text) :
    makeImportant (makeImportant declaration) = makeImportant declaration := by
  rw [makeImportant, if_pos (isImportant_makeImportant declaration)]

end ScopedCss.Declaration
