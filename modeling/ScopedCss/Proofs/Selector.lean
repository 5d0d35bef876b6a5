import ScopedCss.Selector
import ScopedCss.Proofs.Text.Pieces

set_option autoImplicit false

/-!
# Laws of scoped selectors

Scoping under a wrapper that is a single selector works selector by selector (`list_scopeAll`), and
scoping under one wrapper and then under an outer one is scoping under the two of them at once
(`scopeAll_scopeAll`).
-/

namespace ScopedCss.Selector

open Text (IsPiece)

/-- A wrapper that can be wrapped again: one selector, and not one of the whole page. -/
structure IsNestable (wrapper : Text) : Prop extends IsPiece ',' wrapper where
  notPage : isPageSelector wrapper = false

instance (wrapper : Text) : Decidable (IsNestable wrapper) :=
  decidable_of_iff (IsPiece ',' wrapper ∧ isPageSelector wrapper = false)
    ⟨fun ⟨isPiece, notPage⟩ => { isPiece with notPage },
      fun nestable => ⟨nestable.toIsPiece, nestable.notPage⟩⟩

theorem isPageSelector_of_mem {selector : Text} {character : Char} (member : character ∈ selector)
    (foreign : ∀ known ∈ pageSelectors, character.toLower ∉ known) :
    isPageSelector selector = false := by
  rw [Bool.eq_false_iff]
  intro page
  exact foreign _ (isPageSelector_iff.mp page) (List.mem_map_of_mem member)

theorem isPageSelector_of_blank_mem {selector : Text} {character : Char}
    (blank : Text.isBlank character = true) (member : character ∈ selector) :
    isPageSelector selector = false := by
  have solid : pageSelectors.all (fun known => known.all (!Text.isBlank ·)) = true := by decide
  apply isPageSelector_of_mem member
  intro known knownMember inKnown
  rw [Text.toLower_eq_self_of_isBlank blank] at inKnown
  have solidKnown := List.all_eq_true.mp (List.all_eq_true.mp solid known knownMember)
  simpa [blank] using solidKnown character inKnown

theorem isPageSelector_scope {wrapper : Text} (notPage : isPageSelector wrapper = false)
    (selector : Text) : isPageSelector (scope wrapper selector) = false := by
  by_cases page : isPageSelector selector = true
  · rwa [scope, if_pos page]
  · rw [scope, if_neg page]
    exact isPageSelector_of_blank_mem (Text.blank_space ' ' List.mem_cons_self) (by simp)

theorem scope_of_not_page {selector : Text} (notPage : isPageSelector selector = false)
    (wrapper : Text) : scope wrapper selector = wrapper ++ ' ' :: selector := by
  rw [scope, notPage]
  rfl

theorem scope_scope_eq {wrapper : Text} (notPage : isPageSelector wrapper = false)
    (outer selector : Text) :
    scope outer (scope wrapper selector) = outer ++ ' ' :: scope wrapper selector :=
  scope_of_not_page (isPageSelector_scope notPage selector) outer

theorem scope_scope {wrapper : Text} (notPage : isPageSelector wrapper = false)
    (outer selector : Text) :
    scope outer (scope wrapper selector) = scope (outer ++ ' ' :: wrapper) selector := by
  rw [scope_scope_eq notPage]
  by_cases page : isPageSelector selector = true
  · simp only [scope, if_pos page]
  · simp only [scope, if_neg page, List.append_assoc, List.cons_append]

theorem isPiece_scope {wrapper selector : Text} (wrapperPiece : IsPiece ',' wrapper)
    (selectorPiece : IsPiece ',' selector) : IsPiece ',' (scope wrapper selector) := by
  by_cases page : isPageSelector selector = true
  · rwa [scope, if_pos page]
  · rw [scope, if_neg page]
    exact wrapperPiece.append_space selectorPiece (by decide)

theorem list_intercalate {space : Text} (spaceBlank : Text.Blank space) (selectors : List Text) :
    list (List.intercalate (',' :: space) selectors) = selectors.flatMap list :=
  Text.pieces_intercalate_eq_flatMap Text.isBlank_comma spaceBlank selectors

theorem list_printList (selectors : List Text) :
    list (printList selectors) = selectors.flatMap list :=
  list_intercalate Text.blank_space selectors

theorem list_scopeAll {wrapper : Text} (wrapperPiece : IsPiece ',' wrapper) (selectors : Text) :
    list (scopeAll wrapper selectors) = (list selectors).map (scope wrapper) := by
  rw [scopeAll, list_printList]
  apply Text.flatMap_pieces
  intro selector member
  obtain ⟨source, sourceMember, rfl⟩ := List.mem_map.mp member
  exact isPiece_scope wrapperPiece (Text.isPiece_of_mem_pieces sourceMember)

theorem list_scopeAll_append {wrapper selectors last : Text} {earlier : List Text}
    (wrapperPiece : IsPiece ',' wrapper) (split : list selectors = earlier ++ [last])
    (tail : Text) :
    list (scopeAll wrapper selectors ++ tail) =
      earlier.map (scope wrapper) ++ list (scope wrapper last ++ tail) := by
  rw [scopeAll, split, List.map_append, List.map_singleton]
  apply Text.pieces_intercalate_append Text.isBlank_comma Text.blank_space
  intro item member
  obtain ⟨selector, selectorMember, rfl⟩ := List.mem_map.mp member
  have listed : selector ∈ list selectors := split ▸ List.mem_append_left _ selectorMember
  exact isPiece_scope wrapperPiece (Text.isPiece_of_mem_pieces listed)

theorem scopeAll_trim (wrapper selectors : Text) :
    scopeAll wrapper (Text.trim selectors) = scopeAll wrapper selectors := by
  rw [scopeAll, list, Text.pieces_trim Text.isBlank_comma, scopeAll, list]

theorem scopeAll_scopeAll_eq {wrapper : Text} (nestable : IsNestable wrapper)
    (outer selectors : Text) :
    scopeAll outer (scopeAll wrapper selectors) =
      printList ((list selectors).map fun selector => outer ++ ' ' :: scope wrapper selector) := by
  rw [scopeAll, list_scopeAll nestable.toIsPiece, List.map_map]
  congr 1
  apply List.map_congr_left
  intro selector _
  exact scope_scope_eq nestable.notPage outer selector

theorem scopeAll_scopeAll {wrapper : Text} (nestable : IsNestable wrapper)
    (outer selectors : Text) :
    scopeAll outer (scopeAll wrapper selectors) =
      scopeAll (outer ++ ' ' :: wrapper) selectors := by
  rw [scopeAll_scopeAll_eq nestable, scopeAll]
  congr 1
  apply List.map_congr_left
  intro selector _
  rw [← scope_scope nestable.notPage, scope_scope_eq nestable.notPage]

/-- Scoping under a wrapper and then under an outer one is scoping under both at once. The outer one
finds a selector for each of the list, in the same order. None of them stands for the page, so the
outer wrapper goes in front of each as it is, also where that is the first wrapper alone. -/
theorem scopeAll_composes {wrapper : Text} (nestable : IsNestable wrapper)
    (outer selectors : Text) :
    scopeAll outer (scopeAll wrapper selectors) = scopeAll (outer ++ ' ' :: wrapper) selectors ∧
      list (scopeAll wrapper selectors) = (list selectors).map (scope wrapper) ∧
      (∀ selector ∈ list (scopeAll wrapper selectors), isPageSelector selector = false) ∧
      scopeAll outer (scopeAll wrapper selectors) =
        printList ((list selectors).map fun selector => outer ++ ' ' :: scope wrapper selector) := by
  have once := list_scopeAll nestable.toIsPiece selectors
  refine ⟨scopeAll_scopeAll nestable outer selectors, once, ?_,
    scopeAll_scopeAll_eq nestable outer selectors⟩
  intro selector member
  rw [once] at member
  obtain ⟨source, _, rfl⟩ := List.mem_map.mp member
  exact isPageSelector_scope nestable.notPage source

theorem scopeAll_composes_page :
    let wrapper := ".p\x7b@".toList
    IsNestable wrapper ∧
      scopeAll "#q, body".toList (scopeAll wrapper "Body,, a b ,*".toList) =
        "#q, body .p\x7b@, #q, body .p\x7b@ a b, #q, body .p\x7b@".toList ∧
      scopeAll "#q, body".toList (scopeAll wrapper "Body,, a b ,*".toList) =
        scopeAll "#q, body .p\x7b@".toList "Body,, a b ,*".toList := by
  intro wrapper
  have nestable : IsNestable wrapper := by decide
  exact ⟨nestable, by decide, (scopeAll_composes nestable _ _).1⟩

/-- A longer wrapper is longer in every selector that is written. -/
theorem length_scopeAll_cons (character : Char) (wrapper selectors : Text) :
    (scopeAll (character :: wrapper) selectors).length =
      (scopeAll wrapper selectors).length + (list selectors).length := by
  have longer : ∀ selector,
      scope (character :: wrapper) selector = character :: scope wrapper selector := by
    intro selector
    by_cases page : isPageSelector selector = true
    · simp only [scope, if_pos page]
    · simp only [scope, if_neg page, List.cons_append]
  rw [scopeAll, scopeAll]
  induction list selectors with
  | nil => rfl
  | cons first later ih =>
      cases later with
      | nil => simp [printList, longer]
      | cons second later =>
          simp only [printList, List.map_cons, List.intercalate_cons_cons, List.length_append,
            List.length_cons, longer] at ih ⊢
          omega

theorem scopeAll_page (wrapper : Text) : scopeAll wrapper ['*'] = wrapper := by
  have single : list ['*'] = [['*']] := by decide
  have page : isPageSelector ['*'] = true := by decide
  rw [scopeAll, single, List.map_singleton, printList, List.intercalate_singleton, scope,
    if_pos page]

/-- Only such wrappers can be wrapped again. What shows it is the list of the whole page alone. -/
theorem isNestable_iff_scopeAll_scopeAll {wrapper : Text} :
    IsNestable wrapper ↔ ∀ outer selectors,
      scopeAll outer (scopeAll wrapper selectors) =
        scopeAll (outer ++ ' ' :: wrapper) selectors := by
  constructor
  · exact scopeAll_scopeAll
  · intro composes
    have wrapped : ∀ outer, scopeAll outer wrapper = outer ++ ' ' :: wrapper := by
      intro outer
      have onPage := composes outer ['*']
      rwa [scopeAll_page, scopeAll_page] at onPage
    have single : (list wrapper).length = 1 := by
      have longer := length_scopeAll_cons ' ' [] wrapper
      rw [wrapped, wrapped] at longer
      simp at longer
      omega
    obtain ⟨piece, split⟩ := List.length_eq_one_iff.mp single
    have onlyPiece := wrapped []
    rw [scopeAll, split, List.map_singleton, printList, List.intercalate_singleton, scope]
      at onlyPiece
    split at onlyPiece
    · cases onlyPiece
    · rename_i notPage
      obtain rfl : piece = wrapper := by simpa using onlyPiece
      have isPiece : IsPiece ',' piece := Text.isPiece_of_mem_pieces (split ▸ List.mem_cons_self)
      exact { isPiece with notPage := by simpa using notPage }

theorem not_mem_scopeAll {character : Char} {wrapper selectors : Text}
    (notSeparator : character ∉ ", ".toList) (notWrapper : character ∉ wrapper)
    (notSelectors : character ∉ selectors) : character ∉ scopeAll wrapper selectors := by
  intro member
  rcases Text.mem_of_mem_intercalate member with inSeparator | ⟨item, itemMember, inItem⟩
  · exact notSeparator inSeparator
  · obtain ⟨selector, selectorMember, rfl⟩ := List.mem_map.mp itemMember
    have notSelector : character ∉ selector := fun inSelector =>
      notSelectors (Text.subset_of_mem_pieces selectorMember inSelector)
    have notSpace : character ≠ ' ' := by
      intro space
      rw [space] at notSeparator
      exact notSeparator (by decide)
    by_cases page : isPageSelector selector = true
    · rw [scope, if_pos page] at inItem
      exact notWrapper inItem
    · rw [scope, if_neg page] at inItem
      simp [notWrapper, notSelector, notSpace] at inItem

end ScopedCss.Selector
