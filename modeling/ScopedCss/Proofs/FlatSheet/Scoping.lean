import ScopedCss.Proofs.FlatSheet.Basic
import ScopedCss.Proofs.Rule.Traversal

set_option autoImplicit false

/-!
# Scoping flat stylesheets

However a flat stylesheet is written, scoping it gives the lines of its rules (`scope_of_prints`).
The scan takes the printed rules one by one. The white space before a rule goes into its selectors
and is trimmed away there, and the closing braces of media blocks are passed over.
-/

namespace ScopedCss.FlatSheet

open Text (Blank IsPiece)
open Stylesheet (scopeRules scopeRules_eq)

/-! ## Lists -/

theorem Spaced.pieces {separator : Char} (solid : Text.isBlank separator = false)
    {parts items : List Text} (spaced : Spaced parts items)
    (isPiece : ∀ item ∈ items, IsPiece separator item) :
    Text.pieces separator (List.intercalate [separator] parts) = items := by
  induction spaced with
  | nil => exact Text.pieces_eq_nil_of_blank solid Text.blank_nil
  | stray blank _ ih =>
      rw [Text.pieces_intercalate_cons solid Text.blank_nil,
        Text.pieces_eq_nil_of_blank solid blank, ih isPiece, List.nil_append]
  | item leadBlank tailBlank _ split ih =>
      have first := isPiece _ List.mem_cons_self
      have later := ih fun item member => isPiece item (List.mem_cons_of_mem _ member)
      rw [Text.pieces_intercalate_cons solid Text.blank_nil, split,
        Text.pieces_append_append solid leadBlank tailBlank, first.pieces, later,
        List.singleton_append]

theorem Spaced.not_mem {character : Char} (solid : Text.isBlank character = false)
    {parts items : List Text} (spaced : Spaced parts items)
    (absent : ∀ item ∈ items, character ∉ item) : ∀ part ∈ parts, character ∉ part := by
  induction spaced with
  | nil => exact fun part member => absurd member List.not_mem_nil
  | stray blank _ ih =>
      rw [List.forall_mem_cons]
      exact ⟨blank.not_mem solid, ih absent⟩
  | item leadBlank tailBlank _ split ih =>
      rw [List.forall_mem_cons] at absent ⊢
      refine ⟨?_, ih absent.2⟩
      simp [split, leadBlank.not_mem solid, absent.1, tailBlank.not_mem solid]

theorem PrintsList.pieces {separator : Char} (solid : Text.isBlank separator = false)
    {items : List Text} {text : Text} (printed : PrintsList separator items text)
    (isPiece : ∀ item ∈ items, IsPiece separator item) : Text.pieces separator text = items := by
  obtain ⟨parts, spaced, rfl⟩ := printed
  exact spaced.pieces solid isPiece

theorem PrintsList.not_mem {separator character : Char} (solid : Text.isBlank character = false)
    (different : character ≠ separator) {items : List Text} {text : Text}
    (printed : PrintsList separator items text) (absent : ∀ item ∈ items, character ∉ item) :
    character ∉ text := by
  obtain ⟨parts, spaced, rfl⟩ := printed
  intro member
  rcases Text.mem_of_mem_intercalate member with inSeparator | ⟨part, partMember, inPart⟩
  · exact different (List.mem_singleton.mp inSeparator)
  · exact spaced.not_mem solid absent part partMember inPart

theorem PrintsList.ne_nil {separator : Char} (solid : Text.isBlank separator = false)
    {items : List Text} {text : Text} (printed : PrintsList separator items text)
    (isPiece : ∀ item ∈ items, IsPiece separator item) (nonempty : items ≠ []) : text ≠ [] := by
  intro empty
  have read := printed.pieces solid isPiece
  rw [empty, Text.pieces_eq_nil_of_blank solid Text.blank_nil] at read
  exact nonempty read.symm

/-! ## Rules -/

theorem scopedSelector_eq (wrapper selector : Text) :
    scopedSelector wrapper selector = Selector.scope wrapper selector := by
  simp only [scopedSelector, Selector.scope, Selector.isPageSelector_iff, Selector.pageSelectors]

theorem markedDeclaration_eq (declaration : Text) :
    markedDeclaration declaration = Declaration.makeImportant declaration := rfl

theorem StyleRule.line_eq_body {rule : StyleRule} {read : Rule}
    (selectors : Selector.list read.selectors = rule.selectors)
    (declarations : Declaration.list read.declarations = rule.declarations) (wrapper : Text) :
    rule.line wrapper = Rule.body wrapper read := by
  have scope : scopedSelector wrapper = Selector.scope wrapper :=
    funext (scopedSelector_eq wrapper)
  have mark : markedDeclaration = Declaration.makeImportant := funext markedDeclaration_eq
  rw [StyleRule.line, Rule.body, Selector.scopeAll, selectors, Declaration.makeAllImportant,
    declarations, scope, mark, Selector.printList, Declaration.printList]
  simp

section

variable {rule : StyleRule} {lead selectors declarations : Text} {media : Option Text}

theorem StyleRule.isPiece_selector (selector : Text) (member : selector ∈ rule.selectors) :
    IsPiece ',' selector :=
  (rule.isSelector selector member).toIsPiece

theorem StyleRule.isPiece_declaration (declaration : Text)
    (member : declaration ∈ rule.declarations) : IsPiece ';' declaration :=
  (rule.isDeclaration declaration member).toIsPiece

theorem StyleRule.wellFormed_of_printsList (header : ∀ header ∈ media, Occurrence.IsHeader header)
    (leadBlank : Blank lead) (selectorsPrinted : PrintsList ',' rule.selectors selectors)
    (declarationsPrinted : PrintsList ';' rule.declarations declarations) :
    (⟨media, lead ++ selectors, declarations⟩ : Occurrence).WellFormed := by
  have atAbsent : '@' ∉ selectors := selectorsPrinted.not_mem Text.isBlank_at (by decide)
    fun selector member => (rule.isSelector selector member).at_not_mem
  have closeAbsent : '\x7d' ∉ selectors := selectorsPrinted.not_mem Text.isBlank_close (by decide)
    fun selector member => (rule.isSelector selector member).close_not_mem
  have openAbsentDeclarations : '\x7b' ∉ declarations :=
    declarationsPrinted.not_mem Text.isBlank_open (by decide)
      fun declaration member => (rule.isDeclaration declaration member).open_not_mem
  have closeAbsentDeclarations : '\x7d' ∉ declarations :=
    declarationsPrinted.not_mem Text.isBlank_close (by decide)
      fun declaration member => (rule.isDeclaration declaration member).close_not_mem
  have selectorsNonempty : selectors ≠ [] :=
    selectorsPrinted.ne_nil Text.isBlank_comma isPiece_selector rule.selectors_ne_nil
  exact {
    header
    selectors_ne_nil := by simp [selectorsNonempty]
    at_not_mem_selectors := List.not_mem_append (leadBlank.not_mem Text.isBlank_at) atAbsent
    close_not_mem_selectors :=
      List.not_mem_append (leadBlank.not_mem Text.isBlank_close) closeAbsent
    declarations_ne_nil :=
      declarationsPrinted.ne_nil Text.isBlank_semicolon isPiece_declaration
        rule.declarations_ne_nil
    close_not_mem_declarations := closeAbsentDeclarations
    undivided := Occurrence.undivided_of_not_mem openAbsentDeclarations }

theorem StyleRule.body_of_printsList (media : Option Text) (leadBlank : Blank lead)
    (selectorsPrinted : PrintsList ',' rule.selectors selectors)
    (declarationsPrinted : PrintsList ';' rule.declarations declarations) (wrapper : Text) :
    Rule.body wrapper (Occurrence.rule ⟨media, lead ++ selectors, declarations⟩) =
      rule.line wrapper := by
  symm
  apply StyleRule.line_eq_body
  · rw [Selector.list, Occurrence.rule, Text.pieces_trim Text.isBlank_comma,
      Text.pieces_append_left Text.isBlank_comma leadBlank]
    exact selectorsPrinted.pieces Text.isBlank_comma isPiece_selector
  · rw [Declaration.list, Occurrence.rule, Text.pieces_trim Text.isBlank_semicolon]
    exact declarationsPrinted.pieces Text.isBlank_semicolon isPiece_declaration

end

/-- A printed rule is a well-formed occurrence, with white space or a media header in front or
without. -/
theorem StyleRule.Prints.exists_occurrence {rule : StyleRule} {printed : Text}
    (prints : rule.Prints printed) {lead : Text} (leadBlank : Blank lead) {media : Option Text}
    (header : ∀ header ∈ media, Occurrence.IsHeader header) :
    ∃ occurrence : Occurrence, occurrence.WellFormed ∧ occurrence.media = media ∧
      occurrence.text = media.getD [] ++ (lead ++ printed) ∧
      ∀ wrapper, Rule.body wrapper occurrence.rule = rule.line wrapper := by
  obtain ⟨selectors, declarations, selectorsPrinted, declarationsPrinted, rfl⟩ := prints
  refine ⟨⟨media, lead ++ selectors, declarations⟩, ?_, rfl, ?_, ?_⟩
  · exact StyleRule.wellFormed_of_printsList header leadBlank selectorsPrinted declarationsPrinted
  · simp [Occurrence.text]
  · exact StyleRule.body_of_printsList media leadBlank selectorsPrinted declarationsPrinted

/-! ## Items -/

theorem MediaBlock.isHeader_header (block : MediaBlock) : Occurrence.IsHeader block.header :=
  ⟨block.condition, block.condition_ne_nil, block.open_not_mem, rfl⟩

theorem scopeRules_blank {blank : Text} (isBlank : Blank blank) (wrapper : Text) :
    scopeRules wrapper blank = [] := by
  rw [scopeRules_eq, Rule.allIn_eq_nil_of_not_mem (isBlank.not_mem Text.isBlank_open)]
  rfl

theorem scopeRules_blank_close {blank : Text} (isBlank : Blank blank) (wrapper rest : Text) :
    scopeRules wrapper (blank ++ '\x7d' :: rest) = scopeRules wrapper rest := by
  rw [scopeRules_eq, Rule.allIn_blank_append_close isBlank, scopeRules_eq]

theorem StyleRule.Prints.scopeRules_append {rule : StyleRule} {printed : Text}
    (prints : rule.Prints printed) {lead : Text} (leadBlank : Blank lead) (wrapper rest : Text) :
    scopeRules wrapper (lead ++ printed ++ rest) = rule.line wrapper ++ scopeRules wrapper rest := by
  have noHeader : ∀ header ∈ (none : Option Text), Occurrence.IsHeader header := by simp
  obtain ⟨occurrence, wellFormed, media, text, body⟩ :=
    prints.exists_occurrence leadBlank noHeader
  rw [Option.getD_none, List.nil_append] at text
  have line : Rule.line wrapper occurrence.rule = rule.line wrapper := by
    rw [← body wrapper, Rule.line, show occurrence.rule.media = none from media]
  rw [← text, scopeRules_eq, Rule.allIn_text_append wellFormed, List.map_cons, List.flatten_cons,
    line, scopeRules_eq]

theorem StyleRule.Prints.scopeRules_header_append {rule : StyleRule} {printed : Text}
    (prints : rule.Prints printed) {gap lead : Text} (gapBlank : Blank gap)
    (leadBlank : Blank lead) (block : MediaBlock) (wrapper rest : Text) :
    scopeRules wrapper (gap ++ (block.header ++ (lead ++ printed) ++ rest)) =
      block.header ++ ' ' :: rule.line wrapper ++ scopeRules wrapper rest := by
  have header : ∀ header ∈ some block.header, Occurrence.IsHeader header := by
    intro header member
    obtain rfl := Option.some.inj member
    exact block.isHeader_header
  obtain ⟨occurrence, wellFormed, media, text, body⟩ := prints.exists_occurrence leadBlank header
  rw [Option.getD_some] at text
  have hasMedia : occurrence.media ≠ none := by simp [media]
  have openAbsent := gapBlank.not_mem Text.isBlank_open
  have atAbsent := gapBlank.not_mem Text.isBlank_at
  have line : Rule.line wrapper occurrence.rule =
      block.header ++ ' ' :: rule.line wrapper := by
    rw [← body wrapper, Rule.line, show occurrence.rule.media = some block.header from media]
  rw [← text, scopeRules_eq,
    Rule.allIn_append_text_append wellFormed hasMedia openAbsent atAbsent, List.map_cons,
    List.flatten_cons, line, scopeRules_eq]

theorem PrintsRules.scopeRules_close {rules : List StyleRule} {inner : Text}
    (prints : PrintsRules rules inner) (wrapper rest : Text) :
    scopeRules wrapper (inner ++ '\x7d' :: rest) =
      (rules.map (StyleRule.line wrapper)).flatten ++ scopeRules wrapper rest := by
  induction prints with
  | nil blank => exact scopeRules_blank_close blank wrapper rest
  | cons leadBlank rulePrints _ split ih =>
      rw [split, List.append_assoc, rulePrints.scopeRules_append leadBlank, ih, List.map_cons,
        List.flatten_cons, List.append_assoc]

theorem Prints.scopeRules {items : List Item} {text : Text} (prints : Prints items text)
    (wrapper : Text) :
    Stylesheet.scopeRules wrapper text = (items.map (Item.lines wrapper)).flatten := by
  induction prints with
  | nil blank => exact scopeRules_blank blank wrapper
  | style leadBlank rulePrints _ split ih =>
      rw [split, rulePrints.scopeRules_append leadBlank, ih, List.map_cons, List.flatten_cons]
      rfl
  | @media lead inner rest text block items leadBlank innerPrints _ split ih =>
      -- The first rule stands behind the header and is read with it, the later ones alone.
      cases innerPrints with
      | @cons space printed laterPrinted _ _ _ spaceBlank firstPrints laterPrints innerSplit =>
          have parts : text = lead ++ (block.header ++ (space ++ printed) ++
              (laterPrinted ++ '\x7d' :: rest)) := by
            rw [split, innerSplit]
            simp
          rw [parts, firstPrints.scopeRules_header_append leadBlank spaceBlank,
            laterPrints.scopeRules_close, ih, List.map_cons, List.flatten_cons, Item.lines,
            List.append_assoc, List.append_assoc, List.append_assoc]

/-- Scoping a flat stylesheet gives the header and the lines of its rules, however it is written. -/
theorem scope_of_prints {items : List Item} {text : Text} (prints : Prints items text)
    (wrapper : Text) :
    Stylesheet.scope wrapper text =
      Stylesheet.header ++ (items.map (Item.lines wrapper)).flatten := by
  rw [Stylesheet.scope_eq, prints.scopeRules]

theorem scope_of_prints_media :
    let plain : StyleRule :=
      ⟨["html".toList, "a b".toList], ["c: d".toList], by decide, by decide, by decide, by decide⟩
    let first : StyleRule :=
      ⟨["p".toList], ["e: @f !important".toList], by decide, by decide, by decide, by decide⟩
    let second : StyleRule :=
      ⟨["*".toList], ["g".toList], by decide, by decide, by decide, by decide⟩
    let block : MediaBlock :=
      ⟨" print ".toList, first, [second], by decide, by decide, by decide⟩
    let text := " html ,, a b\x7bc: d;; \x7d\n@media print ".toList ++
      "\x7bp\x7be: @f !important\x7d\n*\x7bg\x7d \x7d".toList
    Prints [.style plain, .media block] text ∧
      Stylesheet.scope "#w".toList text = Stylesheet.header ++
        "#w, #w a b \x7b c: d !important; \x7d\n".toList ++
        "@media print \x7b #w p \x7b e: @f !important; \x7d\n".toList ++
        "#w \x7b g !important; \x7d\n".toList := by
  intro plain first second block text
  have none : Blank [] := Text.blank_nil
  have space : Blank [' '] := Text.blank_space
  have lineBreak : Blank ['\n'] := Text.blank_lineBreak
  have plainPrints : plain.Prints " html ,, a b\x7bc: d;; \x7d".toList :=
    ⟨_, _, ⟨_, .item space space (.stray none (.item space none .nil rfl)) rfl, rfl⟩,
      ⟨_, .item none none (.stray none (.stray space .nil)) rfl, rfl⟩, by decide⟩
  have firstPrints : first.Prints "p\x7be: @f !important\x7d".toList :=
    ⟨_, _, ⟨_, .item none none .nil rfl, rfl⟩, ⟨_, .item none none .nil rfl, rfl⟩, by decide⟩
  have secondPrints : second.Prints "*\x7bg\x7d".toList :=
    ⟨_, _, ⟨_, .item none none .nil rfl, rfl⟩, ⟨_, .item none none .nil rfl, rfl⟩, by decide⟩
  have laterPrints : PrintsRules [second] "\n*\x7bg\x7d ".toList :=
    .cons lineBreak secondPrints (.nil space) (by decide)
  have blockPrints : Prints [.media block]
      "\n@media print \x7bp\x7be: @f !important\x7d\n*\x7bg\x7d \x7d".toList :=
    .media lineBreak (.cons none firstPrints laterPrints rfl) (.nil none) (by decide)
  have prints : Prints [.style plain, .media block] text :=
    .style none plainPrints blockPrints (by decide)
  refine ⟨prints, ?_⟩
  rw [scope_of_prints prints]
  decide +kernel

end ScopedCss.FlatSheet
