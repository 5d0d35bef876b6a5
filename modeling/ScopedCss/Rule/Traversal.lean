import ScopedCss.Rule.Occurrence

set_option autoImplicit false

/-!
# Traversal of the rules of a text

`Rule.replaceEach` walks through a text once and writes the answer to each rule as soon as the rule
is found. Nothing is collected first, and the text between the rules is dropped. The answers may
depend on a state that the callback threads from rule to rule.
-/

namespace ScopedCss.Rule

/-- Walks on from `text`, with `written` being the answers so far. -/
def replaceEachFrom {m : Type → Type} [Monad m] (answer : Rule → m Text) (written text : Text) :
    m Text :=
  match _search : Occurrence.next? text with
  | none => pure written
  | some found => do
      let piece ← answer found.occurrence.rule
      replaceEachFrom answer (written ++ piece) found.rest
termination_by text.length
decreasing_by exact Occurrence.next?_rest_length_lt _search

/-- The answers to the rules of a text, one after the other. -/
def replaceEach {m : Type → Type} [Monad m] (answer : Rule → m Text) (text : Text) : m Text :=
  replaceEachFrom answer [] text

end ScopedCss.Rule
