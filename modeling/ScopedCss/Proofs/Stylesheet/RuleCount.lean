import ScopedCss.Proofs.Rule.Closed
import ScopedCss.Proofs.Rule.Traversal

set_option autoImplicit false

/-!
# The number of rules

Wherever a scan begins to read within a written line, it reads up to the closing brace of that line,
and it can begin at the latest right before the line's own opening brace. So every line is read as
one rule (`IsLine.exists_next?`), though not always as the rule it was written for, and no series of
passes changes the number of rules.
-/

namespace ScopedCss

namespace Occurrence

/-- The text starts with what can be left to read of a written line, and `rest` is what follows its
closing brace. Only `before` may hold closing braces, and it holds no opening one. -/
def IsLine (text rest : Text) : Prop :=
  ∃ before head body : Text,
    text = before ++ head ++ ' ' :: '\x7b' :: (body ++ '\x7d' :: rest) ∧ '\x7b' ∉ before ∧
      '\x7d' ∉ head ∧ body ≠ [] ∧ '\x7d' ∉ body

theorem IsLine.exists_braces {text rest : Text} (isLine : IsLine text rest) :
    ∃ before inner, text = before ++ '\x7b' :: (inner ++ '\x7d' :: rest) ∧ '\x7b' ∉ before ∧
      '\x7d' ∉ inner := by
  obtain ⟨before, head, body, rfl, openAbsent, closeAbsentHead, _, closeAbsentBody⟩ := isLine
  have present : '\x7b' ∈ head ++ ' ' :: '\x7b' :: body := by simp
  obtain ⟨first, inner, split, absent⟩ := List.eq_append_cons_of_mem present
  have closeAbsent : '\x7d' ∉ head ++ ' ' :: '\x7b' :: body := by
    simp [closeAbsentHead, closeAbsentBody]
  rw [split] at closeAbsent
  refine ⟨before ++ first, inner, ?_, by simp [openAbsent, absent], ?_⟩
  · have joined := congrArg (fun middle => before ++ middle ++ '\x7d' :: rest) split
    simpa using joined
  · intro member
    exact closeAbsent (by simp [member])

/-- Whatever is read from a line ends with the line, since the first opening brace and the first
closing brace after it tell where an occurrence ends. -/
theorem IsLine.rest_eq {text rest otherRest : Text} {occurrence : Occurrence}
    (isLine : IsLine text rest) (read : at? text = some (occurrence, otherRest)) :
    otherRest = rest := by
  obtain ⟨before, inner, split, openAbsent, closeAbsent⟩ := isLine.exists_braces
  obtain ⟨wellFormed, occurrenceSplit⟩ := at?_eq_some_iff.mp read
  exact wellFormed.rest_eq (occurrenceSplit.symm.trans split) openAbsent closeAbsent

theorem IsLine.tail {character : Char} {text rest : Text} (isLine : IsLine (character :: text) rest)
    (nothing : at? (character :: text) = none) : IsLine text rest := by
  obtain ⟨before, head, body, split, openAbsent, closeAbsentHead, nonempty, closeAbsentBody⟩ :=
    isLine
  cases before with
  | cons first before =>
      obtain ⟨rfl, rfl⟩ := List.cons.inj split
      exact ⟨before, head, body, rfl, fun member => openAbsent (List.mem_cons_of_mem _ member),
        closeAbsentHead, nonempty, closeAbsentBody⟩
  | nil =>
      cases head with
      | cons first head =>
          obtain ⟨rfl, rfl⟩ := List.cons.inj split
          exact ⟨[], head, body, rfl, openAbsent,
            fun member => closeAbsentHead (List.mem_cons_of_mem _ member), nonempty,
            closeAbsentBody⟩
      | nil =>
          -- Right before the opening brace of the line a rule can always be read.
          have readable : at? ([' '] ++ '\x7b' :: (body ++ '\x7d' :: rest)) ≠ none :=
            at?_ne_none_of_bare?_ne_none
              (bare?_ne_none (List.cons_ne_nil _ _) (Text.blank_space.not_mem Text.isBlank_at)
                (Text.blank_space.not_mem Text.isBlank_close) nonempty closeAbsentBody rest)
          rw [split] at nothing
          exact absurd nothing readable

theorem IsLine.exists_next? {text rest : Text} (isLine : IsLine text rest) :
    ∃ found, next? text = some found ∧ found.rest = rest := by
  induction text with
  | nil =>
      obtain ⟨before, inner, split, _⟩ := isLine.exists_braces
      simp at split
  | cons character text ih =>
      cases here : at? (character :: text) with
      | some read =>
          obtain ⟨occurrence, after⟩ := read
          exact ⟨⟨[], occurrence, after⟩, by simp only [next?, here], isLine.rest_eq here⟩
      | none =>
          obtain ⟨found, search, ends⟩ := ih (isLine.tail here)
          refine ⟨{ found with gap := character :: found.gap }, ?_, ends⟩
          rw [next?_cons_of_at?_eq_none here, search]
          rfl

end Occurrence

namespace Rule

open Occurrence (IsLine)

theorem isLine_append_line {lead wrapper : Text} {rule : Rule} (closed : rule.Closed)
    (closeAbsent : '\x7d' ∉ wrapper) (leadOpen : '\x7b' ∉ lead) (rest : Text) :
    IsLine (lead ++ line wrapper rule ++ rest) (['\n'] ++ rest) := by
  have selectors := closed.not_mem_scopeAll closeAbsent
  have declarations := closed.not_mem_spaced_declarations
  cases media : rule.media with
  | none =>
      refine ⟨lead, Selector.scopeAll wrapper rule.selectors, _, ?_, leadOpen, selectors, by simp,
        declarations⟩
      simp [line, body, media]
  | some header =>
      -- The condition may hold closing braces. The opening brace behind it begins the part that
      -- may not.
      obtain ⟨condition, _, absent, rfl⟩ := closed.header header media
      have keyword : '\x7b' ∉ Occurrence.mediaKeyword := by decide
      refine ⟨lead ++ Occurrence.mediaKeyword ++ condition,
        '\x7b' :: ' ' :: Selector.scopeAll wrapper rule.selectors, _, ?_, ?_, ?_, by simp,
        declarations⟩
      · simp [line, body, media]
      · simp [leadOpen, keyword, absent]
      · simp [selectors]

theorem length_allIn_append_lines {lead wrapper : Text} {rules : List Rule}
    (closed : ∀ rule ∈ rules, rule.Closed) (closeAbsent : '\x7d' ∉ wrapper)
    (leadOpen : '\x7b' ∉ lead) :
    (allIn (lead ++ (rules.map (line wrapper)).flatten)).length = rules.length := by
  induction rules generalizing lead with
  | nil =>
      rw [allIn_eq_nil_of_not_mem (by simpa using leadOpen)]
  | cons first later ih =>
      have isLine := isLine_append_line (closed first List.mem_cons_self) closeAbsent leadOpen
        (later.map (line wrapper)).flatten
      obtain ⟨found, search, ends⟩ := isLine.exists_next?
      have breakOpen : '\x7b' ∉ ['\n'] := Text.blank_lineBreak.not_mem Text.isBlank_open
      have rest := ih (fun rule member => closed rule (List.mem_cons_of_mem _ member)) breakOpen
      rw [List.map_cons, List.flatten_cons, ← List.append_assoc, allIn_of_next?_eq_some search,
        List.length_cons, ends, rest, List.length_cons]

end Rule

namespace Stylesheet

def Pass.wrapper : Pass → Text
  | .rules wrapper => wrapper
  | .complete wrapper => wrapper

theorem Pass.length_allIn_apply {pass : Pass} (closeAbsent : '\x7d' ∉ pass.wrapper)
    (text : Text) : (Rule.allIn (pass.apply text)).length = (Rule.allIn text).length := by
  have closed : ∀ rule ∈ Rule.allIn text, rule.Closed := fun rule member =>
    Rule.closed_of_mem_allIn member
  cases pass with
  | rules wrapper =>
      have lines := Rule.length_allIn_append_lines closed closeAbsent List.not_mem_nil
      rwa [List.nil_append, ← scopeRules_eq] at lines
  | complete wrapper =>
      exact Rule.length_allIn_append_lines closed closeAbsent (by decide)

/-- No pass loses a rule or invents one, whatever the text it starts from. -/
theorem length_allIn_results {passes : List Pass}
    (closeAbsent : ∀ pass ∈ passes, '\x7d' ∉ pass.wrapper) (text : Text) :
    (Pass.results passes text).map (fun result => (Rule.allIn result).length) =
      List.replicate passes.length (Rule.allIn text).length := by
  induction passes generalizing text with
  | nil => rfl
  | cons pass later ih =>
      have first := Pass.length_allIn_apply (closeAbsent pass List.mem_cons_self) text
      have rest := ih (fun other member => closeAbsent other (List.mem_cons_of_mem _ member))
        (pass.apply text)
      rw [Pass.results, List.map_cons, rest, first, List.length_cons, List.replicate_succ]

theorem length_allIn_results_atSign :
    let passes : List Pass := [.rules "@media".toList, .complete "@\x7b".toList]
    let text := "x@media \x7d\x7b@a\x7bb\x7b;@\x7dc\x7bd".toList
    (∀ pass ∈ passes, '\x7d' ∉ pass.wrapper) ∧
      (Pass.results passes text).map (fun result => (Rule.allIn result).length) = [1, 1] := by
  intro passes text
  have closeAbsent : ∀ pass ∈ passes, '\x7d' ∉ pass.wrapper := by decide
  have count : (Rule.allIn text).length = 1 := by decide +kernel
  refine ⟨closeAbsent, ?_⟩
  rw [length_allIn_results closeAbsent, count]
  rfl

end Stylesheet

end ScopedCss
