import ScopedCss.Rule.Segmentation
import ScopedCss.Rule.Traversal

set_option autoImplicit false

/-!
# Scoped stylesheets

A stylesheet is scoped under a wrapper selector by writing one line for each of its rules, below a
fixed header. `Stylesheet.scopeRules` writes the lines alone, in one walk through the text;
`Stylesheet.scope` collects the rules first and puts them below the header.
-/

namespace ScopedCss.Stylesheet

/-- The comment at the top of every complete generated stylesheet. -/
def header : Text := "/* CSS Blindado Automaticamente para WordPress */\n\n".toList

/-- A complete stylesheet with the given rules, scoped under `wrapper`. -/
def ofRules (wrapper : Text) (rules : List Rule) : Text :=
  header ++ (rules.map (Rule.line wrapper)).flatten

/-- The lines for the rules of a text, without the header. -/
def scopeRules (wrapper text : Text) : Text :=
  Id.run (Rule.replaceEach (fun rule => pure (rule.line wrapper)) text)

/-- A text made into a complete scoped stylesheet. -/
def scope (wrapper text : Text) : Text := ofRules wrapper (Rule.allIn text)

/-- One pass over a stylesheet, with or without the header. -/
inductive Pass where
  | rules (wrapper : Text)
  | complete (wrapper : Text)
  deriving DecidableEq

def Pass.apply : Pass → Text → Text
  | .rules wrapper => scopeRules wrapper
  | .complete wrapper => scope wrapper

/-- The texts that a series of passes leaves, one for each pass. Each pass reads the text of the
pass before. -/
def Pass.results : List Pass → Text → List Text
  | [], _ => []
  | pass :: later, text => pass.apply text :: results later (pass.apply text)

end ScopedCss.Stylesheet
