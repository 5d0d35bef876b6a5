import ScopedCss.Proofs.Declaration
import ScopedCss.Proofs.Rule.Search
import ScopedCss.Proofs.Selector

set_option autoImplicit false

/-!
# Rules without closing braces

Neither part of a rule that was found in a text holds a closing brace, since the rule ended at the
first one. Scoping under a wrapper without a closing brace keeps it that way, so the line written
for such a rule ends at its own closing brace.
-/

namespace ScopedCss.Rule

open Occurrence (IsHeader)

/-- A rule whose line has no closing brace behind the media header but its own. -/
structure Closed (rule : Rule) : Prop where
  header : ∀ header ∈ rule.media, IsHeader header
  close_not_mem_selectors : '\x7d' ∉ rule.selectors
  close_not_mem_declarations : '\x7d' ∉ rule.declarations

theorem closed_of_mem_allIn {text : Text} {rule : Rule} (member : rule ∈ allIn text) :
    rule.Closed := by
  obtain ⟨occurrence, wellFormed, rfl⟩ := exists_wellFormed_of_mem_allIn member
  exact {
    header := wellFormed.header
    close_not_mem_selectors := fun inTrim =>
      wellFormed.close_not_mem_selectors (Text.trim_subset _ inTrim)
    close_not_mem_declarations := fun inTrim =>
      wellFormed.close_not_mem_declarations (Text.trim_subset _ inTrim) }

theorem Closed.not_mem_scopeAll {rule : Rule} (closed : rule.Closed) {wrapper : Text}
    (closeAbsent : '\x7d' ∉ wrapper) : '\x7d' ∉ Selector.scopeAll wrapper rule.selectors :=
  Selector.not_mem_scopeAll (by decide) closeAbsent closed.close_not_mem_selectors

theorem Closed.not_mem_spaced_declarations {rule : Rule} (closed : rule.Closed) :
    '\x7d' ∉ [' '] ++ Declaration.makeAllImportant rule.declarations ++ [' '] := by
  have absent := Declaration.not_mem_makeAllImportant Text.isBlank_close (by decide) (by decide)
    closed.close_not_mem_declarations
  simp [absent]

end ScopedCss.Rule
