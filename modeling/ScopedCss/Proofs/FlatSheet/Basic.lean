import ScopedCss.Proofs.Text.Pieces

set_option autoImplicit false

/-!
# Flat stylesheets

A flat stylesheet is a series of style rules and media blocks, and a media block holds style rules
only. `Prints` relates it to the texts it can be written as: white space is free around everything,
and lists may have stray separators. `Item.lines` is what is to come out for it, without a header.
-/

namespace ScopedCss.FlatSheet

open Text (Blank IsPiece)

structure IsSelector (selector : Text) : Prop extends IsPiece ',' selector where
  at_not_mem : '@' ∉ selector
  open_not_mem : '\x7b' ∉ selector
  close_not_mem : '\x7d' ∉ selector

instance (selector : Text) : Decidable (IsSelector selector) :=
  decidable_of_iff
    (IsPiece ',' selector ∧ '@' ∉ selector ∧ '\x7b' ∉ selector ∧ '\x7d' ∉ selector)
    ⟨fun ⟨piece, atSign, opening, closing⟩ => { piece with
        at_not_mem := atSign, open_not_mem := opening, close_not_mem := closing },
      fun ⟨piece, atSign, opening, closing⟩ => ⟨piece, atSign, opening, closing⟩⟩

structure IsDeclaration (declaration : Text) : Prop extends IsPiece ';' declaration where
  open_not_mem : '\x7b' ∉ declaration
  close_not_mem : '\x7d' ∉ declaration

instance (declaration : Text) : Decidable (IsDeclaration declaration) :=
  decidable_of_iff (IsPiece ';' declaration ∧ '\x7b' ∉ declaration ∧ '\x7d' ∉ declaration)
    ⟨fun ⟨piece, opening, closing⟩ => { piece with
        open_not_mem := opening, close_not_mem := closing },
      fun ⟨piece, opening, closing⟩ => ⟨piece, opening, closing⟩⟩

/-- A rule of a flat stylesheet, with at least one selector and one declaration. -/
structure StyleRule where
  selectors : List Text
  declarations : List Text
  selectors_ne_nil : selectors ≠ []
  declarations_ne_nil : declarations ≠ []
  isSelector : ∀ selector ∈ selectors, IsSelector selector
  isDeclaration : ∀ declaration ∈ declarations, IsDeclaration declaration

/-- A media block with at least one rule. -/
structure MediaBlock where
  condition : Text
  first : StyleRule
  later : List StyleRule
  condition_ne_nil : condition ≠ []
  open_not_mem : '\x7b' ∉ condition
  close_not_mem : '\x7d' ∉ condition

inductive Item where
  | style (rule : StyleRule)
  | media (block : MediaBlock)

def MediaBlock.header (block : MediaBlock) : Text :=
  "@media".toList ++ block.condition ++ ['\x7b']

/-! ## How a flat stylesheet is written -/

/-- What stands between the separators of a list: its items with white space around them, and white
space alone where a separator is stray. -/
inductive Spaced : List Text → List Text → Prop where
  | nil : Spaced [] []
  | stray {blank : Text} {parts items : List Text} :
      Blank blank → Spaced parts items → Spaced (blank :: parts) items
  | item {lead item tail part : Text} {parts items : List Text} :
      Blank lead → Blank tail → Spaced parts items → part = lead ++ item ++ tail →
      Spaced (part :: parts) (item :: items)

def PrintsList (separator : Char) (items : List Text) (text : Text) : Prop :=
  ∃ parts, Spaced parts items ∧ text = List.intercalate [separator] parts

def StyleRule.Prints (rule : StyleRule) (text : Text) : Prop :=
  ∃ selectors declarations, PrintsList ',' rule.selectors selectors ∧
    PrintsList ';' rule.declarations declarations ∧
    text = selectors ++ '\x7b' :: (declarations ++ ['\x7d'])

inductive PrintsRules : List StyleRule → Text → Prop where
  | nil {blank : Text} : Blank blank → PrintsRules [] blank
  | cons {lead printed rest text : Text} {rule : StyleRule} {rules : List StyleRule} :
      Blank lead → rule.Prints printed → PrintsRules rules rest →
      text = lead ++ printed ++ rest → PrintsRules (rule :: rules) text

/-- The texts that a flat stylesheet can be written as. -/
inductive Prints : List Item → Text → Prop where
  | nil {blank : Text} : Blank blank → Prints [] blank
  | style {lead printed rest text : Text} {rule : StyleRule} {items : List Item} :
      Blank lead → rule.Prints printed → Prints items rest →
      text = lead ++ printed ++ rest → Prints (.style rule :: items) text
  | media {lead inner rest text : Text} {block : MediaBlock} {items : List Item} :
      Blank lead → PrintsRules (block.first :: block.later) inner → Prints items rest →
      text = lead ++ block.header ++ inner ++ '\x7d' :: rest →
      Prints (.media block :: items) text

/-! ## What comes out for it -/

def scopedSelector (wrapper selector : Text) : Text :=
  if selector.map Char.toLower ∈ ["body".toList, "html".toList, "*".toList] then wrapper
  else wrapper ++ ' ' :: selector

def markedDeclaration (declaration : Text) : Text :=
  if Text.hasPart "!important".toList declaration then declaration
  else declaration ++ ' ' :: "!important".toList

def StyleRule.line (wrapper : Text) (rule : StyleRule) : Text :=
  List.intercalate ", ".toList (rule.selectors.map (scopedSelector wrapper)) ++
    " \x7b ".toList ++
    List.intercalate "; ".toList (rule.declarations.map markedDeclaration) ++ ";".toList ++
    " \x7d\n".toList

/-- One line for each rule. The first rule of a media block has the header of the block in front. -/
def Item.lines (wrapper : Text) : Item → Text
  | .style rule => rule.line wrapper
  | .media block =>
      block.header ++ ' ' :: block.first.line wrapper ++
        (block.later.map (StyleRule.line wrapper)).flatten

end ScopedCss.FlatSheet
