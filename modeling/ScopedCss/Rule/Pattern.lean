import ScopedCss.Rule.Occurrence
import ScopedCss.Text.Pattern

set_option autoImplicit false

/-!
# The pattern of a rule

A rule is described by a pattern: an optional media header, one or more characters that are neither
`@` nor a closing brace, an opening brace, one or more characters that are no closing brace, and the
closing brace. It leaves open which of several braces divides selectors from declarations; the order
of preference among its readings decides.
-/

namespace ScopedCss.Rule

/-- The captured parts of a rule. -/
inductive Part where
  | media
  | selectors
  | declarations
  deriving DecidableEq

open Text (Pattern)

def headerPattern : Pattern Part :=
  .sequence (.literal Occurrence.mediaKeyword)
    (.sequence (.oneOrMore (· != '\x7b')) (.literal ['\x7b']))

/-- The pattern of a rule, with its three parts captured. -/
def pattern : Pattern Part :=
  .sequence (.optional (.captured .media headerPattern))
    (.sequence (.captured .selectors (.oneOrMore fun character =>
        character != '@' && character != '\x7d'))
      (.sequence (.literal ['\x7b'])
        (.sequence (.captured .declarations (.oneOrMore (· != '\x7d'))) (.literal ['\x7d']))))

/-- The rule that a reading of the pattern stands for. -/
def ofReading (reading : Pattern.Reading Part) : Rule :=
  ⟨reading.captured? .media, Text.trim ((reading.captured? .selectors).getD []),
    Text.trim ((reading.captured? .declarations).getD [])⟩

/-- The rules of a text as the readings of the pattern give them. -/
def matchAll (text : Text) : List Rule := (pattern.searchAll text).map ofReading

end ScopedCss.Rule
