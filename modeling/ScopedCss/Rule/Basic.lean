import ScopedCss.Declaration
import ScopedCss.Selector

set_option autoImplicit false

/-!
# Rules

A rule is a selector list with a declaration list, and possibly the header of the media block that
it opens. `Rule.line` is the rule as it is written out: scoped under a wrapper, with every
declaration important, on one line.
-/

namespace ScopedCss

/-- A rule of a stylesheet. The media header keeps its opening brace. -/
structure Rule where
  media : Option Text
  selectors : Text
  declarations : Text
  deriving DecidableEq

namespace Rule

/-- The scoped rule without its media header. -/
def body (wrapper : Text) (rule : Rule) : Text :=
  Selector.scopeAll wrapper rule.selectors ++ " \x7b ".toList ++
    Declaration.makeAllImportant rule.declarations ++ " \x7d\n".toList

/-- The line written for a rule. The media header stands in front of the rule as it was read, and
the block that it opens is not closed. -/
def line (wrapper : Text) (rule : Rule) : Text :=
  match rule.media with
  | some header => header ++ ' ' :: body wrapper rule
  | none => body wrapper rule

end Rule

end ScopedCss
