import Mathlib.Data.List.Forall2
import ScopedCss.Proofs.Stylesheet.Importance

set_option autoImplicit false

/-!
# Selectors that stay under the wrapper

What is written for the selectors of a rule stays under the wrapper when it is read again. A brace
at the end of the declarations makes a scan read the declarations as selectors too. They belong to
the last selector as far as their first `,`, and what is behind that was put under no wrapper
(`exists_rescanned_of_not_guarded`, `contained_iff`).
-/

namespace ScopedCss

namespace Selector

open Text (IsPiece)

/-- A selector of the wrapper itself or of something in it. -/
def IsScoped (wrapper selector : Text) : Prop :=
  selector = wrapper ∨ wrapper ++ [' '] <+: selector

instance (wrapper selector : Text) : Decidable (IsScoped wrapper selector) :=
  inferInstanceAs (Decidable (_ ∨ _))

theorem isScoped_scope (wrapper selector : Text) : IsScoped wrapper (scope wrapper selector) := by
  by_cases page : isPageSelector selector = true
  · rw [scope, if_pos page]
    exact .inl rfl
  · rw [scope, if_neg page]
    exact .inr ⟨selector, by simp⟩

theorem isScoped_trim_append_space {wrapper : Text} (isPiece : IsPiece ',' wrapper) {rest : Text}
    (solid : ¬ Text.Blank rest) : IsScoped wrapper (Text.trim (wrapper ++ ' ' :: rest)) := by
  cases wrapper with
  | nil => exact absurd rfl isPiece.nonempty
  | cons first later =>
      have starts := (Text.trim_eq_self_iff.mp isPiece.trimmed).1 first rfl
      have ends := Text.trimEnd_append_of_not_blank solid (later ++ [' '])
      rw [List.append_assoc, List.singleton_append] at ends
      rw [List.cons_append, Text.trim_cons_of_not_blank starts, ends]
      exact .inr ⟨Text.trimEnd rest, by simp⟩

theorem IsScoped.trim_append {wrapper selector : Text} (isScoped : IsScoped wrapper selector)
    (isPiece : IsPiece ',' wrapper) {rest : Text} (solid : ¬ Text.Blank rest) :
    IsScoped wrapper (Text.trim (selector ++ ' ' :: rest)) := by
  cases isScoped with
  | inl same =>
      rw [same]
      exact isScoped_trim_append_space isPiece solid
  | inr descendant =>
      obtain ⟨inner, rfl⟩ := descendant
      have longer : ¬ Text.Blank (inner ++ ' ' :: rest) := fun blank =>
        solid fun character member => blank character (by simp [member])
      rw [show wrapper ++ [' '] ++ inner ++ ' ' :: rest =
        wrapper ++ ' ' :: (inner ++ ' ' :: rest) by simp]
      exact isScoped_trim_append_space isPiece longer

theorem not_isScoped_brace {wrapper : Text} (nonempty : wrapper ≠ []) (braceAbsent : '\x7b' ∉ wrapper)
    (rest : Text) : ¬ IsScoped wrapper ('\x7b' :: rest) := by
  intro isScoped
  cases wrapper with
  | nil => exact nonempty rfl
  | cons first later =>
      have starts : first = '\x7b' := by
        cases isScoped with
        | inl same => exact (List.cons.inj same).1.symm
        | inr descendant => exact (List.cons_prefix_cons.mp descendant).1
      exact braceAbsent (starts ▸ List.mem_cons_self)

/-- Text behind written selectors goes into the last of them, up to a `,`. -/
theorem isScoped_of_mem_list_append {wrapper : Text} (isPiece : IsPiece ',' wrapper)
    {selectors : Text} (nonempty : list selectors ≠ []) {tail : Text} (unseparated : ',' ∉ tail)
    (solid : ¬ Text.Blank tail) :
    ∀ selector ∈ list (scopeAll wrapper selectors ++ ' ' :: tail), IsScoped wrapper selector := by
  obtain ⟨earlier, last, split⟩ := (List.eq_nil_or_concat _).resolve_left nonempty
  rw [List.concat_eq_append] at split
  have lastListed : last ∈ list selectors := split ▸ List.mem_concat_self
  have lastPiece := isPiece_scope isPiece (Text.isPiece_of_mem_pieces lastListed)
  have lastUnseparated : ',' ∉ scope wrapper last ++ ' ' :: tail := by
    simp [lastPiece.unseparated, unseparated]
  have lastSolid : ¬ Text.Blank (scope wrapper last ++ ' ' :: tail) := fun blank =>
    solid fun character member => blank character (by simp [member])
  intro selector member
  rw [list_scopeAll_append isPiece split, list,
    Text.pieces_eq_of_not_blank lastUnseparated lastSolid] at member
  cases List.mem_append.mp member with
  | inl inEarlier =>
      obtain ⟨source, _, rfl⟩ := List.mem_map.mp inEarlier
      exact isScoped_scope wrapper source
  | inr isLast =>
      rw [List.mem_singleton.mp isLast]
      exact (isScoped_scope wrapper last).trim_append isPiece solid

/-- Where no selector was written, the brace begins one. -/
theorem exists_not_isScoped_of_list_eq_nil {wrapper : Text} (nonempty : wrapper ≠ [])
    (braceAbsent : '\x7b' ∉ wrapper) {selectors : Text} (empty : list selectors = [])
    {tail : Text} (unseparated : ',' ∉ tail) :
    ∃ selector ∈ list (scopeAll wrapper selectors ++ ' ' :: '\x7b' :: tail),
      ¬ IsScoped wrapper selector := by
  have braceTail : ',' ∉ ' ' :: '\x7b' :: tail := by simp [unseparated]
  have solid : ¬ Text.Blank (' ' :: '\x7b' :: tail) :=
    Text.not_blank_of_mem Text.isBlank_open (by simp)
  have trimmed : Text.trim (' ' :: '\x7b' :: tail) = '\x7b' :: Text.trimEnd tail :=
    (Text.trim_append_left Text.blank_space _).trans
      (Text.trim_cons_of_not_blank Text.isBlank_open tail)
  refine ⟨'\x7b' :: Text.trimEnd tail, ?_, not_isScoped_brace nonempty braceAbsent _⟩
  rw [scopeAll, empty, List.map_nil, printList, List.intercalate_nil, List.nil_append, list,
    Text.pieces_eq_of_not_blank braceTail solid, trimmed]
  exact List.mem_cons_self

theorem forall_isScoped_append_iff {wrapper : Text} (isPiece : IsPiece ',' wrapper)
    (braceAbsent : '\x7b' ∉ wrapper) (selectors : Text) {tail : Text} (unseparated : ',' ∉ tail) :
    (∀ selector ∈ list (scopeAll wrapper selectors ++ ' ' :: '\x7b' :: tail),
      IsScoped wrapper selector) ↔ list selectors ≠ [] := by
  constructor
  · intro isScoped empty
    obtain ⟨selector, member, escapes⟩ :=
      exists_not_isScoped_of_list_eq_nil isPiece.nonempty braceAbsent empty unseparated
    exact escapes (isScoped selector member)
  · intro nonempty
    apply isScoped_of_mem_list_append isPiece nonempty
    · simp [unseparated]
    · exact Text.not_blank_of_mem Text.isBlank_open List.mem_cons_self

end Selector

namespace Rule

open Declaration (Guarded)
open Occurrence (cutAtLastBrace?)
open Selector (IsScoped)
open Text (IsPiece)

/-- What is written behind the first `,` of the declarations, up to a brace that divides them. -/
def spill? (rule : Rule) : Option Text := do
  let (front, _) ← cutAtLastBrace? (Declaration.makeAllImportant rule.declarations)
  let (_, behind) ← Text.cutAt? ',' front
  return behind

/-- Every selector that is read from the line of the rule is scoped: either no brace divides its
declarations, or what comes before the brace has a selector to go into as far as its first `,`, and
holds nothing behind that but selectors that are scoped by themselves. -/
def Contained (wrapper : Text) (rule : Rule) : Prop :=
  Guarded rule.declarations ∨
    Selector.list rule.selectors ≠ [] ∧
      ∀ behind ∈ rule.spill?, ∀ selector ∈ Selector.list behind, IsScoped wrapper selector

instance (wrapper : Text) (rule : Rule) : Decidable (Contained wrapper rule) :=
  inferInstanceAs (Decidable (_ ∨ _ ∧ _))

theorem list_selectors_of_guarded {wrapper : Text} {rule : Rule} (isPiece : IsPiece ',' wrapper)
    (guarded : Guarded rule.declarations) :
    Selector.list (rescanned [] wrapper rule).selectors =
      (Selector.list rule.selectors).map (Selector.scope wrapper) := by
  rw [rescanned_of_guarded guarded, reread, ite_self, List.nil_append, Selector.list,
    Text.pieces_trim Text.isBlank_comma]
  exact Selector.list_scopeAll isPiece rule.selectors

theorem list_selectors_of_cut {front back : Text} {rule : Rule}
    (cut : cutAtLastBrace? (Declaration.makeAllImportant rule.declarations) = some (front, back))
    (braceAbsent : '\x7b' ∉ back) (wrapper : Text) :
    Selector.list (rescanned [] wrapper rule).selectors =
      Selector.list
        (Selector.scopeAll wrapper rule.selectors ++ ' ' :: '\x7b' :: ' ' :: front) := by
  rw [rescanned_eq_of_cut cut braceAbsent, ite_self, Selector.list,
    Text.pieces_trim Text.isBlank_comma, List.nil_append, List.append_assoc]
  rfl

/-- What is written for the declarations is read as selectors up to the last brace in it. -/
theorem exists_rescanned_of_not_guarded {text : Text} {rule : Rule} (member : rule ∈ allIn text)
    (unguarded : ¬ Guarded rule.declarations) (wrapper : Text) :
    ∃ front back,
      Declaration.makeAllImportant rule.declarations = front ++ '\x7b' :: back ∧ '\x7b' ∉ back ∧
        rescanned [] wrapper rule =
          ⟨rule.media,
            Text.trim (Selector.scopeAll wrapper rule.selectors ++ " \x7b ".toList ++ front),
            Text.trim back⟩ := by
  obtain ⟨front, back, cut, isTail⟩ := exists_cut_makeAllImportant member unguarded
  have split := (Occurrence.cutAtLastBrace?_eq_some_iff.mp cut).1
  refine ⟨front, back, split, isTail.brace_not_mem, ?_⟩
  rw [rescanned_eq_of_cut cut isTail.brace_not_mem, ite_self, List.nil_append]

theorem contained_iff {text wrapper : Text} {rule : Rule} (member : rule ∈ allIn text)
    (isPiece : IsPiece ',' wrapper) (braceAbsent : '\x7b' ∉ wrapper) :
    Contained wrapper rule ↔
      ∀ selector ∈ Selector.list (rescanned [] wrapper rule).selectors,
        IsScoped wrapper selector := by
  by_cases guarded : Guarded rule.declarations
  · simp [Contained, guarded, list_selectors_of_guarded isPiece guarded, Selector.isScoped_scope]
  · obtain ⟨front, back, cut, isTail⟩ := exists_cut_makeAllImportant member guarded
    rw [Contained, or_iff_right guarded, list_selectors_of_cut cut isTail.brace_not_mem]
    cases comma : Text.cutAt? ',' front with
    | none =>
        have unseparated := Text.cutAt?_eq_none_iff.mp comma
        rw [Selector.forall_isScoped_append_iff isPiece braceAbsent _ (by simp [unseparated])]
        simp [spill?, cut, comma]
    | some parts =>
        -- The selector that the declarations go into ends at the comma.
        obtain ⟨within, behind⟩ := parts
        obtain ⟨rfl, unseparated⟩ := Text.cutAt?_eq_some_iff.mp comma
        have cutAtComma : Selector.list (Selector.scopeAll wrapper rule.selectors ++
            ' ' :: '\x7b' :: ' ' :: (within ++ ',' :: behind)) =
              Selector.list (Selector.scopeAll wrapper rule.selectors ++
                ' ' :: '\x7b' :: ' ' :: within) ++ Selector.list behind := by
          rw [Selector.list, Selector.list, Selector.list, ← Text.pieces_append_cons]
          simp
        rw [cutAtComma, List.forall_mem_append,
          Selector.forall_isScoped_append_iff isPiece braceAbsent _ (by simp [unseparated])]
        simp [spill?, cut, comma]

end Rule

namespace Stylesheet

open Selector (IsScoped)
open Text (IsPiece)

/-- What is written for a text has one rule for each rule of the text, in the same order, and its
selectors are scoped exactly where the rule of the text is contained. Where a brace divides the
declarations of a rule, what was written for them is read as selectors up to that brace. -/
theorem contained_iff_isScoped_in_scopeRules {wrapper : Text} (isPiece : IsPiece ',' wrapper)
    (readable : Rule.Readable wrapper) (braceAbsent : '\x7b' ∉ wrapper) (text : Text) :
    List.Forall₂
      (fun source found => Rule.Contained wrapper source ↔
        ∀ selector ∈ Selector.list found.selectors, IsScoped wrapper selector)
      (Rule.allIn text) (Rule.allIn (scopeRules wrapper text)) ∧
    List.Forall₂
      (fun source found => ¬ Declaration.Guarded source.declarations → ∃ front back,
        Declaration.makeAllImportant source.declarations = front ++ '\x7b' :: back ∧ '\x7b' ∉ back ∧
          found =
            ⟨source.media,
              Text.trim (Selector.scopeAll wrapper source.selectors ++ " \x7b ".toList ++ front),
              Text.trim back⟩)
      (Rule.allIn text) (Rule.allIn (scopeRules wrapper text)) := by
  rw [allIn_scopeRules_eq readable, List.forall₂_map_right_iff, List.forall₂_same,
    List.forall₂_map_right_iff, List.forall₂_same]
  constructor
  · intro rule member
    exact Rule.contained_iff member isPiece braceAbsent
  · intro rule member unguarded
    exact Rule.exists_rescanned_of_not_guarded member unguarded wrapper

/-- In the first rule the declarations begin a selector of their own, in the second they go into the
selector of the rule, and in the third there is no such selector. -/
theorem contained_iff_isScoped_in_scopeRules_braces :
    let wrapper := "#p".toList
    let text := "x\x7ba,b\x7b\x7dy\x7ba;b\x7b\x7d,\x7bc\x7b\x7dz, *\x7bd,e@\x7bf\x7d".toList
    IsPiece ',' wrapper ∧ Rule.Readable wrapper ∧ '\x7b' ∉ wrapper ∧
      (Rule.allIn (scopeRules wrapper text)).map (fun rule => Selector.list rule.selectors) =
        [["#p x \x7b a".toList, "b".toList], ["#p y \x7b a !important; b".toList],
          ["\x7b c".toList], ["#p z".toList, "#p".toList]] ∧
      List.Forall₂
        (fun source found => Rule.Contained wrapper source ↔
          ∀ selector ∈ Selector.list found.selectors, IsScoped wrapper selector)
        (Rule.allIn text) (Rule.allIn (scopeRules wrapper text)) ∧
      List.Forall₂
        (fun source found => ¬ Declaration.Guarded source.declarations → ∃ front back,
          Declaration.makeAllImportant source.declarations = front ++ '\x7b' :: back ∧
            '\x7b' ∉ back ∧ found =
              ⟨source.media,
                Text.trim (Selector.scopeAll wrapper source.selectors ++ " \x7b ".toList ++ front),
                Text.trim back⟩)
        (Rule.allIn text) (Rule.allIn (scopeRules wrapper text)) := by
  intro wrapper text
  have isPiece : IsPiece ',' wrapper := by decide
  have readable : Rule.Readable wrapper := by decide
  have braceAbsent : '\x7b' ∉ wrapper := by decide
  refine ⟨isPiece, readable, braceAbsent, by decide +kernel, ?_⟩
  exact contained_iff_isScoped_in_scopeRules isPiece readable braceAbsent text

/-- The declarations of a rule can begin a selector that is under no wrapper. -/
theorem not_forall_isScoped_in_scopeRules :
    ¬ ∀ text wrapper, IsPiece ',' wrapper → Rule.Readable wrapper → '\x7b' ∉ wrapper →
      ∀ rule ∈ Rule.allIn (scopeRules wrapper text), ∀ selector ∈ Selector.list rule.selectors,
        IsScoped wrapper selector := by
  intro allScoped
  have atBrace := allScoped "x\x7ba,b\x7b\x7d".toList ".p".toList (by decide) (by decide) (by decide)
  revert atBrace
  decide +kernel

end Stylesheet

end ScopedCss
