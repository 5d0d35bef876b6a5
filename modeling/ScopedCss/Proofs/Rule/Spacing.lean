import ScopedCss.Proofs.Declaration
import ScopedCss.Proofs.Rule.Traversal
import ScopedCss.Proofs.Selector
import ScopedCss.Proofs.Text.Spacing

set_option autoImplicit false

/-!
# White space in rules

The line of a rule does not show how its lists are spaced (`line_of_respaced`), so the lines of a
text can be written from its occurrences without trimming them (`scopeRules_eq_untrimmed`). What a
line shows of white space is what stands inside a single selector or declaration: white space put in
there gives another line (`line_up_to_spacing`).
-/

namespace ScopedCss

open Text (Blank IsJoint Respaced)

namespace Selector

/-- White space inside makes a selector longer, and none of the whole page. -/
theorem length_scope_lt_insert (wrapper : Text) {inserted : Text} (blank : Blank inserted)
    (nonempty : inserted ≠ []) (front back : Text) :
    (scope wrapper (front ++ back)).length < (scope wrapper (front ++ inserted ++ back)).length := by
  obtain ⟨character, member⟩ := List.exists_mem_of_ne_nil inserted nonempty
  have notPage : isPageSelector (front ++ inserted ++ back) = false :=
    isPageSelector_of_blank_mem (blank character member) (by simp [member])
  have added := List.length_pos_iff.mpr nonempty
  rw [scope_of_not_page notPage]
  by_cases page : isPageSelector (front ++ back) = true
  · rw [scope, if_pos page]
    simp only [List.length_append, List.length_cons]
    omega
  · rw [scope, if_neg page]
    simp only [List.length_append, List.length_cons]
    omega

theorem scopeAll_of_respaced {selectors spaced : Text} (respaced : Respaced ',' selectors spaced)
    (wrapper : Text) : scopeAll wrapper spaced = scopeAll wrapper selectors := by
  rw [scopeAll, list, respaced.pieces_eq Text.isBlank_comma, scopeAll, list]

theorem scopeAll_insert_eq_iff (wrapper : Text) {inserted : Text} (blank : Blank inserted)
    (nonempty : inserted ≠ []) (before after : Text) :
    scopeAll wrapper (before ++ inserted ++ after) = scopeAll wrapper (before ++ after) ↔
      IsJoint ',' before after :=
  Text.intercalate_map_pieces_insert_eq_iff Text.isBlank_comma blank ", ".toList
    (length_scope_lt_insert wrapper blank nonempty)

end Selector

namespace Declaration

/-- White space inside makes a declaration longer. It can break a marker up, and then the
declaration gets another one, but it never makes one. -/
theorem length_makeImportant_lt_insert {inserted : Text} (blank : Blank inserted)
    (nonempty : inserted ≠ []) (front back : Text) :
    (makeImportant (front ++ back)).length <
      (makeImportant (front ++ inserted ++ back)).length := by
  have solid : ∀ character ∈ importantMark, Text.isBlank character = false := by
    have noBlank : importantMark.all (Text.isBlank · == false) = true := by decide
    simpa using List.all_eq_true.mp noBlank
  have added := List.length_pos_iff.mpr nonempty
  by_cases present : isImportant (front ++ inserted ++ back) = true
  · have presentBefore : isImportant (front ++ back) = true :=
      isImportant_iff.mpr (Text.infix_append_of_infix_insert solid blank (isImportant_iff.mp present))
    rw [makeImportant, if_pos presentBefore, makeImportant, if_pos present]
    simp only [List.length_append]
    omega
  · rw [makeImportant, makeImportant, if_neg present]
    split
    · simp only [List.length_append, List.length_cons]
      omega
    · simp only [List.length_append, List.length_cons]
      omega

theorem makeAllImportant_of_respaced {body spaced : Text} (respaced : Respaced ';' body spaced) :
    makeAllImportant spaced = makeAllImportant body := by
  rw [makeAllImportant, list, respaced.pieces_eq Text.isBlank_semicolon, makeAllImportant, list]

theorem makeAllImportant_insert_eq_iff {inserted : Text} (blank : Blank inserted)
    (nonempty : inserted ≠ []) (before after : Text) :
    makeAllImportant (before ++ inserted ++ after) = makeAllImportant (before ++ after) ↔
      IsJoint ';' before after := by
  rw [makeAllImportant, makeAllImportant, printList, printList, List.append_cancel_right_eq]
  exact Text.intercalate_map_pieces_insert_eq_iff Text.isBlank_semicolon blank "; ".toList
    (length_makeImportant_lt_insert blank nonempty)

end Declaration

namespace Rule

variable {wrapper selectors declarations : Text} {media : Option Text}

theorem line_eq_iff_body {otherSelectors otherDeclarations : Text} :
    line wrapper ⟨media, otherSelectors, otherDeclarations⟩ =
        line wrapper ⟨media, selectors, declarations⟩ ↔
      body wrapper ⟨media, otherSelectors, otherDeclarations⟩ =
        body wrapper ⟨media, selectors, declarations⟩ := by
  cases media with
  | none => rfl
  | some header => simp [line]

theorem line_eq_iff_of_selectors {otherSelectors : Text} :
    line wrapper ⟨media, otherSelectors, declarations⟩ =
        line wrapper ⟨media, selectors, declarations⟩ ↔
      Selector.scopeAll wrapper otherSelectors = Selector.scopeAll wrapper selectors := by
  rw [line_eq_iff_body]
  simp [body]

theorem line_eq_iff_of_declarations {otherDeclarations : Text} :
    line wrapper ⟨media, selectors, otherDeclarations⟩ =
        line wrapper ⟨media, selectors, declarations⟩ ↔
      Declaration.makeAllImportant otherDeclarations =
        Declaration.makeAllImportant declarations := by
  rw [line_eq_iff_body]
  simp [body]

theorem line_of_respaced {spacedSelectors spacedDeclarations : Text}
    (selectorsRespaced : Respaced ',' selectors spacedSelectors)
    (declarationsRespaced : Respaced ';' declarations spacedDeclarations)
    (wrapper : Text) (media : Option Text) :
    line wrapper ⟨media, spacedSelectors, spacedDeclarations⟩ =
      line wrapper ⟨media, selectors, declarations⟩ := by
  calc
    _ = line wrapper ⟨media, selectors, spacedDeclarations⟩ :=
      line_eq_iff_of_selectors.mpr (Selector.scopeAll_of_respaced selectorsRespaced wrapper)
    _ = _ :=
      line_eq_iff_of_declarations.mpr
        (Declaration.makeAllImportant_of_respaced declarationsRespaced)

theorem line_trim (wrapper : Text) (media : Option Text) (selectors declarations : Text) :
    line wrapper ⟨media, Text.trim selectors, Text.trim declarations⟩ =
      line wrapper ⟨media, selectors, declarations⟩ :=
  (line_of_respaced (Text.respaced_trim selectors) (Text.respaced_trim declarations)
    wrapper media).symm

/-- The line of a rule is the same with its lists trimmed, with white space around them, and with
white space before and after their separators. White space put in at any one place shows in the line
unless nothing but white space stands between the place and a separator or an end of the list. -/
theorem line_up_to_spacing (wrapper : Text) (media : Option Text) (selectors declarations : Text) :
    line wrapper ⟨media, Text.trim selectors, Text.trim declarations⟩ =
        line wrapper ⟨media, selectors, declarations⟩ ∧
    (∀ leadOfSelectors tailOfSelectors leadOfDeclarations tailOfDeclarations : Text,
      Blank leadOfSelectors → Blank tailOfSelectors →
      Blank leadOfDeclarations → Blank tailOfDeclarations →
      line wrapper ⟨media, leadOfSelectors ++ selectors ++ tailOfSelectors,
          leadOfDeclarations ++ declarations ++ tailOfDeclarations⟩ =
        line wrapper ⟨media, selectors, declarations⟩) ∧
    (∀ spacedSelectors spacedDeclarations : Text,
      Respaced ',' selectors spacedSelectors → Respaced ';' declarations spacedDeclarations →
      line wrapper ⟨media, spacedSelectors, spacedDeclarations⟩ =
        line wrapper ⟨media, selectors, declarations⟩) ∧
    ∀ before inserted after : Text, Blank inserted → inserted ≠ [] →
      (selectors = before ++ after →
        (line wrapper ⟨media, before ++ inserted ++ after, declarations⟩ =
            line wrapper ⟨media, selectors, declarations⟩ ↔
          IsJoint ',' before after)) ∧
      (declarations = before ++ after →
        (line wrapper ⟨media, selectors, before ++ inserted ++ after⟩ =
            line wrapper ⟨media, selectors, declarations⟩ ↔
          IsJoint ';' before after)) := by
  refine ⟨line_trim wrapper media selectors declarations, ?_, ?_, ?_⟩
  · intro leadOfSelectors tailOfSelectors leadOfDeclarations tailOfDeclarations selectorsLead
      selectorsTail declarationsLead declarationsTail
    exact line_of_respaced (.around selectors selectorsLead selectorsTail)
      (.around declarations declarationsLead declarationsTail) wrapper media
  · intro spacedSelectors spacedDeclarations selectorsRespaced declarationsRespaced
    exact line_of_respaced selectorsRespaced declarationsRespaced wrapper media
  · intro before inserted after blank nonempty
    constructor
    · intro split
      rw [split, line_eq_iff_of_selectors]
      exact Selector.scopeAll_insert_eq_iff wrapper blank nonempty before after
    · intro split
      rw [split, line_eq_iff_of_declarations]
      exact Declaration.makeAllImportant_insert_eq_iff blank nonempty before after

theorem line_up_to_spacing_media :
    let media : Option Text := some "@media x\x7b".toList
    let selectors := "a b,BODY,,".toList
    let declarations := ";c:d!important; ".toList
    let spacedSelectors := "\u2003a b\t,\nBODY ,,".toList
    let spacedDeclarations := " ; c:d!important\u0085; ".toList
    Respaced ',' selectors spacedSelectors ∧ Respaced ';' declarations spacedDeclarations ∧
      line ".p".toList ⟨media, spacedSelectors, spacedDeclarations⟩ =
        "@media x\x7b .p a b, .p \x7b c:d!important; \x7d\n".toList ∧
      line ".p".toList ⟨media, "\u3000".toList ++ selectors ++ [], [] ++ declarations ++ ['\n']⟩ =
        line ".p".toList ⟨media, selectors, declarations⟩ ∧
      line ".p".toList ⟨media, "a b,BOD Y,,".toList, declarations⟩ ≠
        line ".p".toList ⟨media, selectors, declarations⟩ ∧
      line ".p".toList ⟨media, selectors, ";c:d! important; ".toList⟩ ≠
        line ".p".toList ⟨media, selectors, declarations⟩ := by
  intro media selectors declarations spacedSelectors spacedDeclarations
  have selectorsRespaced : Respaced ',' selectors spacedSelectors :=
    .beside (.around "a b".toList (by decide : Blank "\u2003".toList) (by decide : Blank "\t".toList))
      (.beside (.around "BODY".toList (by decide : Blank "\n".toList) Text.blank_space)
        (.around ",".toList Text.blank_nil Text.blank_nil))
  have declarationsRespaced : Respaced ';' declarations spacedDeclarations :=
    .beside (.around [] Text.blank_space Text.blank_nil)
      (.beside (.around "c:d!important".toList Text.blank_space (by decide : Blank "\u0085".toList))
        (.around " ".toList Text.blank_nil Text.blank_nil))
  obtain ⟨_, around, spaced, inserted⟩ :=
    line_up_to_spacing ".p".toList media selectors declarations
  have inSelector := (inserted "a b,BOD".toList " ".toList "Y,,".toList (by decide) (by decide)).1
  have inDeclaration :=
    (inserted ";c:d!".toList " ".toList "important; ".toList (by decide) (by decide)).2
  refine ⟨selectorsRespaced, declarationsRespaced, ?_, ?_, ?_, ?_⟩
  · rw [spaced spacedSelectors spacedDeclarations selectorsRespaced declarationsRespaced]
    decide
  · exact around "\u3000".toList [] [] ['\n'] (by decide) Text.blank_nil Text.blank_nil
      Text.blank_lineBreak
  · intro same
    exact absurd ((inSelector rfl).mp same) (by decide)
  · intro same
    exact absurd ((inDeclaration rfl).mp same) (by decide)

end Rule

namespace Stylesheet

/-- The lines of a text can be written from its occurrences as they stand there. -/
theorem scopeRules_eq_untrimmed (wrapper text : Text) :
    scopeRules wrapper text =
      ((Segmentation.of text).segments.map fun segment =>
        Rule.line wrapper
          ⟨segment.2.media, segment.2.selectors, segment.2.declarations⟩).flatten := by
  rw [scopeRules_eq, Rule.allIn, Segmentation.rules, List.map_map]
  congr 1
  apply List.map_congr_left
  intro segment _
  exact Rule.line_trim wrapper segment.2.media segment.2.selectors segment.2.declarations

end Stylesheet

end ScopedCss
