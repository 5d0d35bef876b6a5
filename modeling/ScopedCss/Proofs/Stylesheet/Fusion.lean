import ScopedCss.Proofs.Rule.Traversal
import ScopedCss.Proofs.Stylesheet.RoundTrip

set_option autoImplicit false

/-!
# Scoping several times

A text that was scoped under one wrapper and is scoped under another is scoped under both, the outer
one in front (`scopeRules_scopeRules`). What makes this work is kept by every pass, so a series of
passes is a single one.
-/

namespace ScopedCss

/-- A wrapper whose output can be scoped once more under an outer wrapper. -/
structure Selector.IsInner (wrapper : Text) : Prop extends
    Selector.IsNestable wrapper, Rule.Readable wrapper

instance (wrapper : Text) : Decidable (Selector.IsInner wrapper) :=
  decidable_of_iff (Selector.IsNestable wrapper ∧ Rule.Readable wrapper)
    ⟨fun ⟨nestable, readable⟩ => { nestable, readable with },
      fun inner => ⟨inner.toIsNestable, inner.toReadable⟩⟩

namespace Rule

theorem rereadable_of_mem_allIn {text : Text} {rule : Rule} (member : rule ∈ allIn text)
    (guarded : Declaration.Guarded rule.declarations) : rule.Rereadable := by
  have scannable := scannable_of_mem_allIn member
  exact { scannable with guarded }

theorem line_reread {wrapper : Text} (nestable : Selector.IsNestable wrapper) (outer : Text)
    (rule : Rule) :
    line outer (reread [] wrapper rule) = line (outer ++ ' ' :: wrapper) rule := by
  have selectors : Selector.scopeAll outer (reread [] wrapper rule).selectors =
      Selector.scopeAll (outer ++ ' ' :: wrapper) rule.selectors := by
    simp only [reread, ite_self, List.nil_append]
    rw [Selector.scopeAll_trim, Selector.scopeAll_scopeAll nestable]
  have declarations : Declaration.makeAllImportant (reread [] wrapper rule).declarations =
      Declaration.makeAllImportant rule.declarations :=
    Declaration.makeAllImportant_idem rule.declarations
  have media : (reread [] wrapper rule).media = rule.media := rfl
  rw [line, line, body, body, selectors, declarations, media]

end Rule

namespace Stylesheet

open Selector (IsInner)

/-- No rule of the text has an opening brace in its declarations without an `@` before it there. -/
def Guarded (text : Text) : Prop :=
  ∀ rule ∈ Rule.allIn text, Declaration.Guarded rule.declarations

instance (text : Text) : Decidable (Guarded text) :=
  inferInstanceAs (Decidable (∀ rule ∈ Rule.allIn text, Declaration.Guarded rule.declarations))

theorem allIn_scopeRules {wrapper text : Text} (guarded : Guarded text)
    (readable : Rule.Readable wrapper) :
    Rule.allIn (scopeRules wrapper text) = (Rule.allIn text).map (Rule.reread [] wrapper) := by
  rw [scopeRules_eq]
  apply Rule.allIn_lines _ readable
  intro rule member
  exact Rule.rereadable_of_mem_allIn member (guarded rule member)

theorem guarded_scopeRules {wrapper text : Text} (guarded : Guarded text)
    (readable : Rule.Readable wrapper) : Guarded (scopeRules wrapper text) := by
  intro rule member
  rw [allIn_scopeRules guarded readable] at member
  obtain ⟨source, sourceMember, rfl⟩ := List.mem_map.mp member
  exact Declaration.guarded_makeAllImportant (guarded source sourceMember)

theorem scopeRules_scopeRules {wrapper text : Text} (guarded : Guarded text)
    (inner : IsInner wrapper) (outer : Text) :
    scopeRules outer (scopeRules wrapper text) = scopeRules (outer ++ ' ' :: wrapper) text := by
  rw [scopeRules_eq, allIn_scopeRules guarded inner.toReadable, List.map_map, scopeRules_eq]
  congr 2
  funext rule
  exact Rule.line_reread inner.toIsNestable outer rule

/-- A series of passes is a single pass under all its wrappers, the last one in front. -/
theorem foldl_scopeRules {text last : Text} {wrappers : List Text} (guarded : Guarded text)
    (inner : ∀ wrapper ∈ wrappers, IsInner wrapper) :
    (wrappers ++ [last]).foldl (fun result wrapper => scopeRules wrapper result) text =
      scopeRules (List.intercalate [' '] (last :: wrappers.reverse)) text := by
  induction wrappers generalizing text with
  | nil => simp
  | cons wrapper wrappers ih =>
      have first := inner wrapper List.mem_cons_self
      have later := ih (guarded_scopeRules guarded first.toReadable)
        fun other member => inner other (List.mem_cons_of_mem _ member)
      rw [List.cons_append, List.foldl_cons, later, scopeRules_scopeRules guarded first]
      congr 1
      simp [Text.intercalate_cons]

theorem foldl_scopeRules_media :
    let text := "@media x\x7bBODY, a\x7bb: c@\x7b; d\x7d p\x7be\x7d\x7d".toList
    Guarded text ∧ (∀ wrapper ∈ ["#a".toList, ".b\x7b".toList], IsInner wrapper) ∧
      scopeRules "c, @\x7d".toList (scopeRules ".b\x7b".toList (scopeRules "#a".toList text)) =
        scopeRules "c, @\x7d .b\x7b #a".toList text := by
  intro text
  have guarded : Guarded text := by decide +kernel
  have inner : ∀ wrapper ∈ ["#a".toList, ".b\x7b".toList], IsInner wrapper := by decide
  exact ⟨guarded, inner, foldl_scopeRules guarded inner⟩

end Stylesheet

end ScopedCss
