import Mathlib.Data.List.Infix
import ScopedCss.Proofs.Declaration
import ScopedCss.Proofs.Selector
import ScopedCss.Proofs.Text.Cut

set_option autoImplicit false

/-!
# Separators inside parentheses

Declarations and selectors may hold the separator of their list inside parentheses. The lists are
cut there all the same: what is written is marked and scoped piece by piece, and it is what the
declarations and the selectors ask for as wholes only where none of them holds its separator.
-/

namespace ScopedCss

namespace Text

variable {separator : Char}

/-- No more parentheses are closed than were opened before, and in the end all are closed. -/
structure Balanced (text : Text) : Prop where
  opened : ∀ before, before <+: text → before.count ')' ≤ before.count '('
  closed : text.count '(' = text.count ')'

instance (text : Text) : Decidable (Balanced text) :=
  decidable_of_iff
    ((∀ before ∈ text.inits, before.count ')' ≤ before.count '(') ∧
      text.count '(' = text.count ')')
    ⟨fun ⟨opened, closed⟩ => ⟨fun before start => opened before ((List.mem_inits _ _).mpr start),
        closed⟩,
      fun balanced => ⟨fun before member => balanced.opened before ((List.mem_inits _ _).mp member),
        balanced.closed⟩⟩

/-- Every occurrence of the mark has a parenthesis around it that is still open. -/
def Sheltered (mark : Char) (text : Text) : Prop :=
  ∀ before after, text = before ++ mark :: after → before.count ')' < before.count '('

instance (mark : Char) (text : Text) : Decidable (Sheltered mark text) :=
  decidable_of_iff
    (∀ before ∈ text.inits, before ++ [mark] <+: text → before.count ')' < before.count '(')
    ⟨fun inside before after split =>
        inside before ((List.mem_inits _ _).mpr ⟨mark :: after, split.symm⟩)
          ⟨after, by simp [split]⟩,
      fun sheltered before _ ⟨after, split⟩ => sheltered before after (by simp [← split])⟩

/-- An item of a list as it is meant: it may hold the separator, but inside parentheses only. -/
structure IsItem (separator : Char) (item : Text) : Prop where
  nonempty : item ≠ []
  trimmed : trim item = item
  balanced : Balanced item
  sheltered : Sheltered separator item

instance (item : Text) : Decidable (IsItem separator item) :=
  decidable_of_iff
    (item ≠ [] ∧ trim item = item ∧ Balanced item ∧ Sheltered separator item)
    ⟨fun ⟨nonempty, trimmed, balanced, sheltered⟩ => ⟨nonempty, trimmed, balanced, sheltered⟩,
      fun isItem => ⟨isItem.nonempty, isItem.trimmed, isItem.balanced, isItem.sheltered⟩⟩

theorem IsItem.isPiece {item : Text} (isItem : IsItem separator item)
    (unseparated : separator ∉ item) : IsPiece separator item :=
  ⟨isItem.nonempty, isItem.trimmed, unseparated⟩

theorem Sheltered.open_mem {before after : Text}
    (sheltered : Sheltered separator (before ++ separator :: after)) : '(' ∈ before := by
  have inside := sheltered before after rfl
  exact List.count_pos_iff.mp (by omega)

theorem Sheltered.close_mem {before after : Text} (notClose : separator ≠ ')')
    (sheltered : Sheltered separator (before ++ separator :: after))
    (balanced : Balanced (before ++ separator :: after)) : ')' ∈ after := by
  have inside := sheltered before after rfl
  have closed := balanced.closed
  rw [List.count_append, List.count_append, List.count_cons_of_ne notClose] at closed
  have kept := List.count_le_count_cons (a := '(') (b := separator) (l := after)
  exact List.count_pos_iff.mp (by omega)

end Text

open Text (IsItem IsPiece)

namespace Declaration

theorem makeImportant_of_mem_list {declaration piece : Text}
    (unmarked : ¬ importantMark <:+: declaration) (member : piece ∈ list declaration) :
    makeImportant piece = piece ++ ' ' :: importantMark := by
  have unmarkedPiece : ¬ isImportant piece = true := fun marked =>
    unmarked ((isImportant_iff.mp marked).trans (Text.infix_of_mem_pieces member))
  rw [makeImportant, if_neg unmarkedPiece]

theorem makeAllImportant_intercalate {declarations : List Text}
    (unmarked : ∀ declaration ∈ declarations, ¬ importantMark <:+: declaration) :
    makeAllImportant (List.intercalate [';'] declarations) =
      printList ((declarations.flatMap list).map (· ++ ' ' :: importantMark)) := by
  rw [makeAllImportant, list,
    Text.pieces_intercalate_eq_flatMap Text.isBlank_semicolon Text.blank_nil]
  congr 1
  apply List.map_congr_left
  intro piece member
  obtain ⟨declaration, declarationMember, pieceMember⟩ := List.mem_flatMap.mp member
  exact makeImportant_of_mem_list (unmarked declaration declarationMember) pieceMember

/-- The piece in front of the first semicolon would be written without a marker. -/
theorem exists_not_isImportant {declaration : Text} (isItem : IsItem ';' declaration)
    (unmarked : ¬ importantMark <:+: declaration) (separated : ';' ∈ declaration) (tail : Text) :
    ∃ piece ∈ list (declaration ++ tail), ¬ isImportant piece = true := by
  obtain ⟨before, after, rfl, unseparated⟩ := List.eq_append_cons_of_mem separated
  have solid : Text.isBlank '(' = false := by decide
  have first : list before = [Text.trim before] :=
    Text.pieces_eq_of_not_blank unseparated
      (Text.not_blank_of_mem solid isItem.sheltered.open_mem)
  have firstRead : ∀ tail, Text.trim before ∈ list (before ++ ';' :: tail) := by
    intro tail
    rw [list, Text.pieces_append_cons, ← list, first]
    exact List.mem_append_left _ List.mem_cons_self
  refine ⟨Text.trim before, ?_, ?_⟩
  · rw [List.append_assoc, List.cons_append]
    exact firstRead (after ++ tail)
  · intro marked
    exact unmarked
      ((isImportant_iff.mp marked).trans (Text.infix_of_mem_pieces (firstRead after)))

theorem makeAllImportant_intercalate_eq_iff {declarations : List Text}
    (isDeclaration : ∀ declaration ∈ declarations,
      IsItem ';' declaration ∧ ¬ importantMark <:+: declaration) :
    makeAllImportant (List.intercalate [';'] declarations) =
        printList (declarations.map (· ++ ' ' :: importantMark)) ↔
      ∀ declaration ∈ declarations, ';' ∉ declaration := by
  constructor
  · intro same declaration member separated
    obtain ⟨isItem, unmarked⟩ := isDeclaration declaration member
    obtain ⟨piece, pieceMember, notImportant⟩ :=
      exists_not_isImportant isItem unmarked separated (' ' :: importantMark)
    have written : piece ∈ list (makeAllImportant (List.intercalate [';'] declarations)) := by
      rw [same, list_printList_eq_flatMap, List.flatMap_map]
      exact List.mem_flatMap.mpr ⟨declaration, member, pieceMember⟩
    rw [list_makeAllImportant] at written
    obtain ⟨source, _, rfl⟩ := List.mem_map.mp written
    exact notImportant (isImportant_makeImportant source)
  · intro unseparated
    have whole : declarations.flatMap list = declarations :=
      Text.flatMap_pieces fun declaration member =>
        (isDeclaration declaration member).1.isPiece (unseparated declaration member)
    rw [makeAllImportant_intercalate fun declaration member => (isDeclaration declaration member).2,
      whole]

end Declaration

namespace Selector

theorem scopeAll_intercalate (wrapper : Text) (selectors : List Text) :
    scopeAll wrapper (List.intercalate [','] selectors) =
      printList ((selectors.flatMap list).map (scope wrapper)) := by
  rw [scopeAll, list_intercalate Text.blank_nil]

theorem scopeAll_intercalate_of_unseparated {selectors : List Text}
    (isSelector : ∀ selector ∈ selectors, IsItem ',' selector ∧ isPageSelector selector = false)
    (unseparated : ∀ selector ∈ selectors, ',' ∉ selector) (wrapper : Text) :
    scopeAll wrapper (List.intercalate [','] selectors) =
      printList (selectors.map (wrapper ++ ' ' :: ·)) := by
  have whole : selectors.flatMap list = selectors :=
    Text.flatMap_pieces fun selector member =>
      (isSelector selector member).1.isPiece (unseparated selector member)
  rw [scopeAll_intercalate, whole]
  congr 1
  apply List.map_congr_left
  intro selector member
  exact scope_of_not_page (isSelector selector member).2 wrapper

/-- What stands behind the last comma is a selector of its own when the list is cut. -/
theorem exists_list_append_singleton {selector : Text} (isItem : IsItem ',' selector)
    (separated : ',' ∈ selector) :
    ∃ last, isPageSelector last = false ∧
      ∀ lead, ∃ earlier, list (lead ++ selector) = earlier ++ [last] := by
  obtain ⟨before, after, rfl, unseparated⟩ := Text.exists_cut_at_last separated
  have solid : Text.isBlank ')' = false := by decide
  have close : ')' ∈ after := isItem.sheltered.close_mem (by decide) isItem.balanced
  have last : list after = [Text.trim after] :=
    Text.pieces_eq_of_not_blank unseparated (Text.not_blank_of_mem solid close)
  refine ⟨Text.trim after, isPageSelector_of_mem (Text.mem_trim solid close) (by decide), ?_⟩
  intro lead
  refine ⟨list (lead ++ before), ?_⟩
  rw [← last, ← List.append_assoc]
  exact Text.pieces_append_cons (lead ++ before) after

/-- As a piece the text behind the last comma is scoped, and at the end of the whole selector it is
not. -/
theorem append_map_scope_ne {selector : Text} (isItem : IsItem ',' selector)
    (separated : ',' ∈ selector) (wrapper : Text) (front otherFront : List Text) :
    front ++ (list selector).map (scope wrapper) ≠
      otherFront ++ list (wrapper ++ ' ' :: selector) := by
  intro same
  obtain ⟨last, lastNotPage, ends⟩ := exists_list_append_singleton isItem separated
  obtain ⟨earlier, bare⟩ := ends []
  obtain ⟨otherEarlier, wrapped⟩ := ends (wrapper ++ [' '])
  rw [List.nil_append] at bare
  rw [List.append_assoc, List.singleton_append] at wrapped
  rw [bare, wrapped, List.map_append, List.map_singleton, ← List.append_assoc,
    ← List.append_assoc] at same
  have lasts := (List.append_inj' same rfl).2
  rw [scope_of_not_page lastNotPage] at lasts
  have lengths := congrArg List.length (List.singleton_inj.mp lasts)
  simp at lengths
  omega

theorem unseparated_of_scopeAll_intercalate_eq {wrapper : Text} (isPiece : IsPiece ',' wrapper)
    {selectors : List Text}
    (isSelector : ∀ selector ∈ selectors, IsItem ',' selector ∧ isPageSelector selector = false)
    (same : scopeAll wrapper (List.intercalate [','] selectors) =
      printList (selectors.map (wrapper ++ ' ' :: ·))) :
    ∀ selector ∈ selectors, ',' ∉ selector := by
  have read : (selectors.flatMap list).map (scope wrapper) =
      (selectors.map (wrapper ++ ' ' :: ·)).flatMap list := by
    have written := congrArg list same
    rwa [list_scopeAll isPiece, list_intercalate Text.blank_nil, list_printList] at written
  clear same
  -- The two lists are compared from their ends: a selector without a comma gives one piece in both.
  induction selectors using List.reverseRecOn with
  | nil => simp
  | append_singleton earlier selector ih =>
      obtain ⟨isItem, notPage⟩ := isSelector selector (by simp)
      rw [List.flatMap_append, List.map_append, List.map_append, List.flatMap_append,
        List.flatMap_singleton, List.map_singleton, List.flatMap_singleton] at read
      have unseparated : ',' ∉ selector := fun separated =>
        append_map_scope_ne isItem separated wrapper _ _ read
      have selectorPiece := isItem.isPiece unseparated
      have wrappedPiece := isPiece.append_space selectorPiece (by decide)
      rw [show list selector = [selector] from selectorPiece.pieces,
        show list (wrapper ++ ' ' :: selector) = _ from wrappedPiece.pieces, List.map_singleton,
        scope_of_not_page notPage] at read
      have earlierUnseparated :=
        ih (fun other member => isSelector other (List.mem_append_left _ member))
          (List.append_cancel_right read)
      simpa [or_imp, forall_and] using And.intro earlierUnseparated unseparated

end Selector

/-- A list is cut at the separators inside parentheses too, and each piece is marked or scoped. So
the declarations are marked as wholes exactly if none of them holds a semicolon. The selectors are
scoped as wholes if none of them holds a comma, and under a wrapper that is a single selector only
then. -/
theorem lists_cut_inside_parentheses {declarations selectors : List Text}
    (isDeclaration : ∀ declaration ∈ declarations,
      IsItem ';' declaration ∧ ¬ Declaration.importantMark <:+: declaration)
    (isSelector : ∀ selector ∈ selectors,
      IsItem ',' selector ∧ Selector.isPageSelector selector = false) :
    (Declaration.makeAllImportant (List.intercalate [';'] declarations) =
        Declaration.printList
          ((declarations.flatMap Declaration.list).map (· ++ ' ' :: Declaration.importantMark)) ∧
      (Declaration.makeAllImportant (List.intercalate [';'] declarations) =
          Declaration.printList (declarations.map (· ++ ' ' :: Declaration.importantMark)) ↔
        ∀ declaration ∈ declarations, ';' ∉ declaration)) ∧
    ∀ wrapper,
      Selector.scopeAll wrapper (List.intercalate [','] selectors) =
          Selector.printList ((selectors.flatMap Selector.list).map (Selector.scope wrapper)) ∧
        ((∀ selector ∈ selectors, ',' ∉ selector) →
          Selector.scopeAll wrapper (List.intercalate [','] selectors) =
            Selector.printList (selectors.map (wrapper ++ ' ' :: ·))) ∧
        (IsPiece ',' wrapper →
          Selector.scopeAll wrapper (List.intercalate [','] selectors) =
              Selector.printList (selectors.map (wrapper ++ ' ' :: ·)) →
            ∀ selector ∈ selectors, ',' ∉ selector) := by
  refine ⟨⟨?_, Declaration.makeAllImportant_intercalate_eq_iff isDeclaration⟩, ?_⟩
  · exact Declaration.makeAllImportant_intercalate fun declaration member =>
      (isDeclaration declaration member).2
  · intro wrapper
    refine ⟨Selector.scopeAll_intercalate wrapper selectors, ?_, ?_⟩
    · intro unseparated
      exact Selector.scopeAll_intercalate_of_unseparated isSelector unseparated wrapper
    · intro isPiece
      exact Selector.unseparated_of_scopeAll_intercalate_eq isPiece isSelector

theorem lists_cut_inside_parentheses_url :
    let declarations := ["a: url(b;c;)".toList, "d: (e)".toList]
    let selectors := [":is(a, *,b)".toList, "c > d".toList]
    (∀ declaration ∈ declarations,
      IsItem ';' declaration ∧ ¬ Declaration.importantMark <:+: declaration) ∧
    (∀ selector ∈ selectors, IsItem ',' selector ∧ Selector.isPageSelector selector = false) ∧
    Declaration.makeAllImportant (List.intercalate [';'] declarations) =
      "a: url(b !important; c !important; ) !important; d: (e) !important;".toList ∧
    Declaration.makeAllImportant (List.intercalate [';'] declarations) ≠
      Declaration.printList (declarations.map (· ++ ' ' :: Declaration.importantMark)) ∧
    Selector.scopeAll ".p".toList (List.intercalate [','] selectors) =
      ".p :is(a, .p, .p b), .p c > d".toList ∧
    Selector.scopeAll ".p".toList (List.intercalate [','] selectors) ≠
      Selector.printList (selectors.map (".p".toList ++ ' ' :: ·)) := by
  intro declarations selectors
  have isDeclaration : ∀ declaration ∈ declarations,
      IsItem ';' declaration ∧ ¬ Declaration.importantMark <:+: declaration := by decide
  have isSelector : ∀ selector ∈ selectors,
      IsItem ',' selector ∧ Selector.isPageSelector selector = false := by decide
  have laws := lists_cut_inside_parentheses isDeclaration isSelector
  obtain ⟨marked, markedWhole⟩ := laws.1
  obtain ⟨scopedPieces, _, scopedWhole⟩ := laws.2 ".p".toList
  refine ⟨isDeclaration, isSelector, ?_, ?_, ?_, ?_⟩
  · rw [marked]
    decide
  · rw [Ne, markedWhole]
    decide
  · rw [scopedPieces]
    decide
  · intro same
    exact absurd (scopedWhole (by decide) same) (by decide)

/-- Neither a data address with a semicolon nor a selector with alternatives is left whole. -/
theorem not_lists_whole_inside_parentheses :
    (¬ ∀ declarations : List Text, declarations ≠ [] →
      (∀ declaration ∈ declarations,
        IsItem ';' declaration ∧ ¬ Declaration.importantMark <:+: declaration) →
      Declaration.makeAllImportant (List.intercalate [';'] declarations) =
        Declaration.printList (declarations.map (· ++ ' ' :: Declaration.importantMark))) ∧
    ¬ ∀ (wrapper : Text) (selectors : List Text), selectors ≠ [] →
      (∀ selector ∈ selectors, IsItem ',' selector ∧ Selector.isPageSelector selector = false) →
      Selector.scopeAll wrapper (List.intercalate [','] selectors) =
        Selector.printList (selectors.map (wrapper ++ ' ' :: ·)) := by
  constructor
  · intro whole
    have atAddress := whole ["a: url(data:image/png;base64,AA)".toList] (by decide) (by decide)
    revert atAddress
    decide
  · intro whole
    have atAlternatives := whole ".p".toList [":is(a, b)".toList] (by decide) (by decide)
    revert atAlternatives
    decide

end ScopedCss
