import ScopedCss.Text.Blank

set_option autoImplicit false

/-!
# Release
-/

namespace ScopedCss.Release

def version : Text := "0.1.0".toList

/-- The name of the program with its version. -/
def title : Text := "CSS Shield v".toList ++ version

end ScopedCss.Release
