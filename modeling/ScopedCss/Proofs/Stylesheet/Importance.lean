import ScopedCss.Proofs.Rule.Braces
import ScopedCss.Proofs.Stylesheet.RoundTrip
import ScopedCss.Proofs.Stylesheet.RuleCount

set_option autoImplicit false

/-!
# Importance of what is written

A brace in the declarations of a rule that was found in a text can divide them only where nothing
follows it (`exists_eq_append_brace`). Marking the declarations puts the end of the last one behind
it, and possibly its marker, so a scan that divides the written line there reads no declaration or
the marker alone. Otherwise it reads what was written, and all of that is marked.
-/

namespace ScopedCss

namespace Declaration

theorem exists_printList_append_singleton (earlier : List Text) (last : Text) :
    ∃ lead, printList (earlier ++ [last]) = lead ++ last ++ [';'] := by
  cases earlier with
  | nil => exact ⟨[], by simp [printList]⟩
  | cons first later =>
      refine ⟨first ++ (later.map ("; ".toList ++ ·)).flatten ++ "; ".toList, ?_⟩
      simp [printList, Text.intercalate_cons]

/-- Text that can follow a brace at the end of the declarations when they are made important. -/
structure IsTail (text : Text) : Prop where
  nonempty : text ≠ []
  brace_not_mem : '\x7b' ∉ text
  important : ∀ declaration ∈ list text, isImportant declaration = true

theorem exists_makeAllImportant_append_brace (front : Text) :
    ∃ before after, makeAllImportant (front ++ ['\x7b']) = before ++ '\x7b' :: after ∧
      IsTail after := by
  have different : '\x7b' ≠ ';' := by decide
  obtain ⟨earlier, last, split⟩ :=
    Text.exists_pieces_append_singleton Text.isBlank_open different front
  obtain ⟨lead, printed⟩ := exists_printList_append_singleton (earlier.map makeImportant)
    (makeImportant (last ++ ['\x7b']))
  rw [makeAllImportant, list, split, List.map_append, List.map_singleton, printed]
  -- Behind the brace stands the end of the list, with a marker unless the brace has one before it.
  by_cases present : isImportant (last ++ ['\x7b']) = true
  · rw [makeImportant, if_pos present]
    exact ⟨lead ++ last, [';'], by simp, by decide, by decide, by decide⟩
  · rw [makeImportant, if_neg present]
    exact ⟨lead ++ last, ' ' :: importantMark ++ [';'], by simp, by decide, by decide, by decide⟩

end Declaration

namespace Rule

open Declaration (Guarded IsTail isImportant)
open Occurrence

/-- Of the braces that could divide the declarations, a scan leaves none but one at their end. -/
theorem exists_eq_append_brace {text : Text} {rule : Rule} (member : rule ∈ allIn text)
    (unguarded : ¬ Guarded rule.declarations) :
    ∃ front, rule.declarations = front ++ ['\x7b'] ∧ '@' ∉ front := by
  obtain ⟨occurrence, wellFormed, rfl⟩ := exists_wellFormed_of_mem_allIn member
  simp only [Guarded, not_forall] at unguarded
  obtain ⟨before, after, split, atAbsent⟩ := unguarded
  obtain ⟨rfl, _⟩ := wellFormed.brace_place split atAbsent
  exact ⟨before, split, atAbsent⟩

theorem exists_cut_makeAllImportant {text : Text} {rule : Rule} (member : rule ∈ allIn text)
    (unguarded : ¬ Guarded rule.declarations) :
    ∃ front back,
      cutAtLastBrace? (Declaration.makeAllImportant rule.declarations) = some (front, back) ∧
        IsTail back := by
  obtain ⟨source, ends, atAbsentSource⟩ := exists_eq_append_brace member unguarded
  obtain ⟨front, back, printed, isTail⟩ :=
    Declaration.exists_makeAllImportant_append_brace source
  have atAbsent : '@' ∉ Declaration.makeAllImportant (source ++ ['\x7b']) :=
    Declaration.not_mem_makeAllImportant Text.isBlank_at (by decide) (by decide)
      (by simp [atAbsentSource])
  rw [printed, List.mem_append, not_or] at atAbsent
  refine ⟨front, back, ?_, isTail⟩
  rw [ends, printed, cutAtLastBrace?_eq_some_iff]
  exact ⟨rfl, atAbsent.1, isTail.nonempty, undivided_of_not_mem isTail.brace_not_mem⟩

theorem rescanned_eq_of_cut {front back : Text} {rule : Rule}
    (cut : cutAtLastBrace? (Declaration.makeAllImportant rule.declarations) = some (front, back))
    (braceAbsent : '\x7b' ∉ back) (lead wrapper : Text) :
    rescanned lead wrapper rule =
      ⟨rule.media,
        Text.trim ((if rule.media = none then lead else []) ++
          Selector.scopeAll wrapper rule.selectors ++ " \x7b ".toList ++ front),
        Text.trim back⟩ := by
  obtain ⟨split, atAbsent, _⟩ := cutAtLastBrace?_eq_some_iff.mp cut
  have spaced : ∀ lead, cutAtLastBrace? (written lead wrapper rule).declarations =
      some (' ' :: front, back ++ [' ']) := by
    intro lead
    rw [cutAtLastBrace?_eq_some_iff]
    refine ⟨by simp [written, split], by simp [atAbsent], by simp, undivided_of_not_mem ?_⟩
    simp [braceAbsent]
  rw [rescanned, redivide_eq_of_cut (spaced _), Occurrence.rule,
    Text.trim_append_right Text.blank_space]
  simp [written]

theorem isImportant_of_mem_rescanned {text : Text} {rule : Rule} (member : rule ∈ allIn text)
    (lead wrapper : Text) {declaration : Text}
    (declarationMember : declaration ∈ Declaration.list (rescanned lead wrapper rule).declarations) :
    isImportant declaration = true := by
  by_cases guarded : Guarded rule.declarations
  · have declarations : (rescanned lead wrapper rule).declarations =
        Declaration.makeAllImportant rule.declarations := by
      rw [rescanned_of_guarded guarded, reread]
    rw [declarations, Declaration.list_makeAllImportant] at declarationMember
    obtain ⟨source, _, rfl⟩ := List.mem_map.mp declarationMember
    exact Declaration.isImportant_makeImportant source
  · obtain ⟨front, back, cut, isTail⟩ := exists_cut_makeAllImportant member guarded
    rw [rescanned_eq_of_cut cut isTail.brace_not_mem, Declaration.list,
      Text.pieces_trim Text.isBlank_semicolon] at declarationMember
    exact isTail.important declaration declarationMember

end Rule

namespace Stylesheet

theorem Pass.exists_rescanned_of_mem_allIn_apply {pass : Pass}
    (readable : Rule.Readable pass.wrapper) {text : Text} {rule : Rule}
    (member : rule ∈ Rule.allIn (pass.apply text)) :
    ∃ lead, ∃ source ∈ Rule.allIn text, Rule.rescanned lead pass.wrapper source = rule := by
  have scannable : ∀ rule ∈ Rule.allIn text, rule.Scannable := fun rule found =>
    Rule.scannable_of_mem_allIn found
  cases pass with
  | rules wrapper =>
      rw [Pass.apply, scopeRules_eq, ← List.nil_append (List.flatten _)] at member
      have nilReadable := Rule.readable_of_blank Text.blank_nil
      exact Rule.exists_rescanned_of_mem_allIn scannable readable nilReadable List.not_mem_nil
        member
  | complete wrapper =>
      exact Rule.exists_rescanned_of_mem_allIn scannable readable (by decide) (by decide) member

/-- Whatever a text holds, all declarations read from what is written for it are important. -/
theorem Pass.importantMark_infix_of_mem_allIn_apply {pass : Pass}
    (readable : Rule.Readable pass.wrapper) (text : Text) :
    ∀ rule ∈ Rule.allIn (pass.apply text), ∀ declaration ∈ Declaration.list rule.declarations,
      Declaration.importantMark <:+: declaration := by
  intro rule member declaration declarationMember
  obtain ⟨lead, source, sourceMember, rfl⟩ := pass.exists_rescanned_of_mem_allIn_apply readable member
  exact Declaration.isImportant_iff.mp
    (Rule.isImportant_of_mem_rescanned sourceMember lead pass.wrapper declarationMember)

/-- The second line is divided at the brace that its declarations end in, and the third is not. -/
theorem Pass.importantMark_infix_of_mem_allIn_apply_braces :
    let pass : Pass := .complete ".p\x7b".toList
    let text := "@media x\x7ba\x7bb!important;;c\x7dd\x7be;f\x7b\x7dg\x7bh @ \x7b;i\x7d".toList
    Rule.Readable pass.wrapper ∧
      (Rule.allIn (pass.apply text)).map (fun rule => Declaration.list rule.declarations) =
        [["b!important".toList, "c !important".toList], ["!important".toList],
          ["h @ \x7b !important".toList, "i !important".toList]] ∧
      ∀ rule ∈ Rule.allIn (pass.apply text), ∀ declaration ∈ Declaration.list rule.declarations,
        Declaration.importantMark <:+: declaration := by
  intro pass text
  have readable : Rule.Readable pass.wrapper := by decide
  refine ⟨readable, ?_, importantMark_infix_of_mem_allIn_apply readable text⟩
  decide +kernel

end Stylesheet

end ScopedCss
