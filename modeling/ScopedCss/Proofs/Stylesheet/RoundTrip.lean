import ScopedCss.Proofs.Stylesheet.Rescan

set_option autoImplicit false

/-!
# Reading the written lines again

Where no brace in the declarations of a rule can divide them, its line is divided at the brace that
was written between its selectors and its declarations. So a scan of the written lines gives the
rules that they were written for, scoped and made important (`rescanned_of_guarded`).
-/

namespace ScopedCss

namespace Rule

open Occurrence (IsHeader)

/-- A rule whose line is cut at its own braces when it is read again. -/
structure Rereadable (rule : Rule) : Prop where
  header : ∀ header ∈ rule.media, IsHeader header
  at_not_mem_selectors : '@' ∉ rule.selectors
  close_not_mem_selectors : '\x7d' ∉ rule.selectors
  close_not_mem_declarations : '\x7d' ∉ rule.declarations
  guarded : Declaration.Guarded rule.declarations

instance (rule : Rule) : Decidable rule.Rereadable :=
  decidable_of_iff
    ((∀ header ∈ rule.media, IsHeader header) ∧ '@' ∉ rule.selectors ∧ '\x7d' ∉ rule.selectors ∧
      '\x7d' ∉ rule.declarations ∧ Declaration.Guarded rule.declarations)
    ⟨fun ⟨header, atSign, close, closeDeclarations, guarded⟩ =>
        ⟨header, atSign, close, closeDeclarations, guarded⟩,
      fun ⟨header, atSign, close, closeDeclarations, guarded⟩ =>
        ⟨header, atSign, close, closeDeclarations, guarded⟩⟩

theorem Rereadable.scannable {rule : Rule} (rereadable : rule.Rereadable) : rule.Scannable where
  header := rereadable.header
  close_not_mem_selectors := rereadable.close_not_mem_selectors
  close_not_mem_declarations := rereadable.close_not_mem_declarations
  at_not_mem_selectors := rereadable.at_not_mem_selectors

/-- What is read from the line of a rule that has the text `lead` in front of it. -/
def reread (lead wrapper : Text) (rule : Rule) : Rule :=
  ⟨rule.media,
    Text.trim ((if rule.media = none then lead else []) ++
      Selector.scopeAll wrapper rule.selectors),
    Declaration.makeAllImportant rule.declarations⟩

theorem rescanned_of_guarded {rule : Rule} (guarded : Declaration.Guarded rule.declarations)
    (lead wrapper : Text) : rescanned lead wrapper rule = reread lead wrapper rule := by
  have undivided : ∀ lead, Occurrence.Undivided (written lead wrapper rule).declarations := by
    have space := Text.blank_space.not_mem Text.isBlank_open
    have spaced := (Declaration.guarded_makeAllImportant guarded).append_append space space
    exact fun _ before after split _ => spaced before after split
  rw [rescanned, Occurrence.redivide_eq_self (undivided _), reread, written, Occurrence.rule,
    Text.trim_append_append Text.blank_space Text.blank_space, Declaration.trim_makeAllImportant,
    Text.trim_append_right Text.blank_space]

theorem allIn_append_lines {lead wrapper : Text} {rules : List Rule}
    (rereadable : ∀ rule ∈ rules, rule.Rereadable) (readable : Readable wrapper)
    (leadReadable : Readable lead) (leadOpen : '\x7b' ∉ lead) :
    allIn (lead ++ (rules.map (line wrapper)).flatten) =
      match rules with
      | [] => []
      | first :: later => reread lead wrapper first :: later.map (reread [] wrapper) := by
  have same : ∀ rule ∈ rules, ∀ lead, rescanned lead wrapper rule = reread lead wrapper rule :=
    fun rule member lead => rescanned_of_guarded (rereadable rule member).guarded lead wrapper
  rw [allIn_append_lines_eq (fun rule member => (rereadable rule member).scannable) readable
    leadReadable leadOpen]
  cases rules with
  | nil => rfl
  | cons first later =>
      have rest : later.map (rescanned [] wrapper) = later.map (reread [] wrapper) :=
        List.map_congr_left fun rule member => same rule (List.mem_cons_of_mem _ member) []
      simp only [same first List.mem_cons_self, rest]

theorem allIn_lines {wrapper : Text} {rules : List Rule}
    (rereadable : ∀ rule ∈ rules, rule.Rereadable) (readable : Readable wrapper) :
    allIn (rules.map (line wrapper)).flatten = rules.map (reread [] wrapper) := by
  rw [allIn_lines_eq (fun rule member => (rereadable rule member).scannable) readable]
  exact List.map_congr_left fun rule member =>
    rescanned_of_guarded (rereadable rule member).guarded [] wrapper

end Rule

namespace Stylesheet

/-- Written lines are read as the rules they were written for, scoped and made important. Below the
header of a complete stylesheet the same holds, but for the selectors of a first rule without a
media header, which take the header of the stylesheet in. -/
theorem rules_of_written_lines {wrapper : Text} {rules : List Rule}
    (rereadable : ∀ rule ∈ rules, rule.Rereadable) (readable : Rule.Readable wrapper) :
    Rule.allIn (rules.map (Rule.line wrapper)).flatten = rules.map (Rule.reread [] wrapper) ∧
      Rule.allIn (ofRules wrapper rules) =
        match rules with
        | [] => []
        | first :: later => Rule.reread header wrapper first :: later.map (Rule.reread [] wrapper) :=
  ⟨Rule.allIn_lines rereadable readable,
    Rule.allIn_append_lines rereadable readable (by decide) (by decide)⟩

/-- Braces in the condition of a header, in selectors and behind an `@` do no harm. -/
theorem rules_of_written_lines_braces :
    let first : Rule := ⟨none, "a\x7bb, BODY".toList, "c: @\x7bd ; ;".toList⟩
    let second : Rule := ⟨some "@media \x7d@ \x7b".toList, ",".toList, [';']⟩
    (∀ rule ∈ [first, second], rule.Rereadable) ∧ Rule.Readable ".p\x7b".toList ∧
      Rule.allIn ([first, second].map (Rule.line ".p\x7b".toList)).flatten =
        [⟨none, ".p\x7b a\x7bb, .p\x7b".toList, "c: @\x7bd !important;".toList⟩,
          ⟨some "@media \x7d@ \x7b".toList, [], [';']⟩] := by
  intro first second
  have rereadable : ∀ rule ∈ [first, second], rule.Rereadable := by decide
  have readable : Rule.Readable ".p\x7b".toList := by decide
  refine ⟨rereadable, readable, ?_⟩
  rw [(rules_of_written_lines rereadable readable).1]
  decide

end Stylesheet

end ScopedCss
