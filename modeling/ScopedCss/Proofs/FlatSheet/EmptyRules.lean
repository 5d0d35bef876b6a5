import ScopedCss.Proofs.Rule.Headless

set_option autoImplicit false

/-!
# Empty rules in flat stylesheets

A rule with an empty body is no rule to the scan. Where it stands by itself or behind another rule
of its media block, it is passed over and nothing else changes. Where a media block begins with it,
the header of the block is lost with it: the scan gives the header up and reads what it can behind
it, and no rule of the block gets it.
-/

namespace ScopedCss.FlatSheet

open Text (Blank)
open Occurrence (IsHeader)

/-! ## Flat stylesheets as they are written -/

/-- A rule as it is written, with a body that may be empty. -/
structure WrittenRule where
  selectors : Text
  body : Text
  not_blank : ¬ Blank selectors
  marks_not_mem : '@' ∉ selectors ∧ '\x7b' ∉ selectors ∧ '\x7d' ∉ selectors
  braces_not_mem_body : '\x7b' ∉ body ∧ '\x7d' ∉ body

def WrittenRule.text (rule : WrittenRule) : Text :=
  rule.selectors ++ '\x7b' :: (rule.body ++ ['\x7d'])

def WrittenRule.hasBody (rule : WrittenRule) : Bool := !rule.body.isEmpty

structure Condition where
  text : Text
  ne_nil : text ≠ []
  braces_not_mem : '\x7b' ∉ text ∧ '\x7d' ∉ text

def Condition.header (condition : Condition) : Text :=
  "@media".toList ++ condition.text ++ ['\x7b']

/-- A media block in which at least one rule has a body. -/
structure WrittenBlock where
  condition : Condition
  rules : List WrittenRule
  filled : rules.filter WrittenRule.hasBody ≠ []

inductive WrittenItem where
  | style (rule : WrittenRule)
  | media (block : WrittenBlock)
  /-- A media block without rules. White space in it is not free. -/
  | hollow (condition : Condition) (inner : Text) (blank : Blank inner)

/-- What is written for some items, with white space around each. -/
inductive Spread {α : Type} (Writes : α → Text → Prop) : List α → Text → Prop where
  | nil {blank : Text} : Blank blank → Spread Writes [] blank
  | cons {lead written rest text : Text} {item : α} {items : List α} :
      Blank lead → Writes item written → Spread Writes items rest →
      text = lead ++ (written ++ rest) → Spread Writes (item :: items) text

def WrittenRule.Writes (rule : WrittenRule) (text : Text) : Prop := text = rule.text

def WrittenItem.Writes : WrittenItem → Text → Prop
  | .style rule, text => rule.Writes text
  | .media block, text => ∃ inner, Spread WrittenRule.Writes block.rules inner ∧
      text = block.condition.header ++ (inner ++ ['\x7d'])
  | .hollow condition inner _, text => text = condition.header ++ (inner ++ ['\x7d'])

/-! ## Removing the empty rules -/

def WrittenBlock.withoutEmpty (block : WrittenBlock) : WrittenBlock where
  condition := block.condition
  rules := block.rules.filter WrittenRule.hasBody
  filled := by
    rw [List.filter_filter]
    simpa using block.filled

def WrittenItem.withoutEmpty : WrittenItem → List WrittenItem
  | .style rule => if rule.hasBody then [.style rule] else []
  | .media block => [.media block.withoutEmpty]
  | .hollow condition inner blank => [.hollow condition inner blank]

def WrittenBlock.opensWithBody (block : WrittenBlock) : Bool :=
  block.rules.head?.any WrittenRule.hasBody

/-- Either the item is no media block, or it is one that begins with a rule that has a body. -/
def WrittenItem.KeepsHeader : WrittenItem → Prop
  | .media block => block.opensWithBody = true
  | _ => True

/-- Whether a scan finds the header of a media block. -/
def WrittenItem.showsHeader : WrittenItem → Bool
  | .media block => block.opensWithBody
  | _ => false

/-! ## What a scan is to find -/

def WrittenRule.found (media : Option Text) (rule : WrittenRule) : Rule :=
  ⟨media, Text.trim rule.selectors, Text.trim rule.body⟩

/-- The rules that have a body. The first one has the header of the block. -/
def WrittenBlock.found (block : WrittenBlock) : List Rule :=
  match block.rules.filter WrittenRule.hasBody with
  | [] => []
  | first :: later =>
      first.found (some block.condition.header) :: later.map (WrittenRule.found none)

def WrittenItem.found : WrittenItem → List Rule
  | .style rule => if rule.hasBody then [rule.found none] else []
  | .media block => block.found
  | .hollow condition inner _ => Rule.allIn (condition.header ++ (inner ++ ['\x7d']))

/-! ## Rules -/

section

variable {rule : WrittenRule} {lead : Text}

theorem WrittenRule.body_eq_nil (empty : rule.hasBody = false) : rule.body = [] := by
  simpa [hasBody] using empty

theorem WrittenRule.body_ne_nil (hasBody : rule.hasBody = true) : rule.body ≠ [] := by
  simpa [WrittenRule.hasBody] using hasBody

theorem WrittenRule.at_not_mem_append (rule : WrittenRule) (leadBlank : Blank lead) :
    '@' ∉ lead ++ rule.selectors :=
  List.not_mem_append (leadBlank.not_mem Text.isBlank_at) rule.marks_not_mem.1

theorem WrittenRule.open_not_mem_append (rule : WrittenRule) (leadBlank : Blank lead) :
    '\x7b' ∉ lead ++ rule.selectors :=
  List.not_mem_append (leadBlank.not_mem Text.isBlank_open) rule.marks_not_mem.2.1

theorem WrittenRule.close_not_mem_append (rule : WrittenRule) (leadBlank : Blank lead) :
    '\x7d' ∉ lead ++ rule.selectors :=
  List.not_mem_append (leadBlank.not_mem Text.isBlank_close) rule.marks_not_mem.2.2

theorem WrittenRule.wellFormed (hasBody : rule.hasBody = true) (leadBlank : Blank lead)
    {media : Option Text} (header : ∀ header ∈ media, IsHeader header) :
    (⟨media, lead ++ rule.selectors, rule.body⟩ : Occurrence).WellFormed where
  header := header
  selectors_ne_nil := by
    intro empty
    have none := (List.append_eq_nil_iff.mp empty).2
    exact rule.not_blank (none ▸ Text.blank_nil)
  at_not_mem_selectors := rule.at_not_mem_append leadBlank
  close_not_mem_selectors := rule.close_not_mem_append leadBlank
  declarations_ne_nil := rule.body_ne_nil hasBody
  close_not_mem_declarations := rule.braces_not_mem_body.2
  undivided := Occurrence.undivided_of_not_mem rule.braces_not_mem_body.1

theorem WrittenRule.rule_occurrence (leadBlank : Blank lead) (media : Option Text) :
    Occurrence.rule ⟨media, lead ++ rule.selectors, rule.body⟩ = rule.found media := by
  rw [Occurrence.rule, Text.trim_append_left leadBlank, found]

theorem WrittenRule.allIn_of_hasBody (hasBody : rule.hasBody = true) (leadBlank : Blank lead)
    (rest : Text) :
    Rule.allIn (lead ++ (rule.text ++ rest)) = rule.found none :: Rule.allIn rest := by
  have noHeader : ∀ header ∈ (none : Option Text), IsHeader header := by simp
  have read := Rule.allIn_text_append (rule.wellFormed hasBody leadBlank noHeader) rest
  rw [rule_occurrence leadBlank] at read
  simpa [Occurrence.text, WrittenRule.text] using read

theorem WrittenRule.allIn_of_empty (empty : rule.hasBody = false) (leadBlank : Blank lead)
    (rest : Text) : Rule.allIn (lead ++ (rule.text ++ rest)) = Rule.allIn rest := by
  have skipped := Rule.allIn_append_braces (rule.open_not_mem_append leadBlank)
    (rule.close_not_mem_append leadBlank) rest
  simpa [WrittenRule.text, rule.body_eq_nil empty] using skipped

end

/-- The rules of a block, up to its closing brace. -/
theorem Spread.allIn_close {rules : List WrittenRule} {inner : Text}
    (spread : Spread WrittenRule.Writes rules inner) (rest : Text) :
    Rule.allIn (inner ++ '\x7d' :: rest) =
      (rules.filter WrittenRule.hasBody).map (WrittenRule.found none) ++ Rule.allIn rest := by
  induction spread with
  | nil blank =>
      rw [Rule.allIn_blank_append_close blank]
      rfl
  | @cons lead written behind text rule rules leadBlank writes _ joined ih =>
      obtain rfl : written = rule.text := writes
      rw [joined, List.append_assoc, List.append_assoc]
      cases hasBody : rule.hasBody with
      | false =>
          rw [WrittenRule.allIn_of_empty hasBody leadBlank, ih,
            List.filter_cons_of_neg (by simp [hasBody])]
      | true =>
          rw [WrittenRule.allIn_of_hasBody hasBody leadBlank, ih, List.filter_cons_of_pos hasBody]
          rfl

/-! ## Media blocks -/

theorem Condition.isHeader_header (condition : Condition) : IsHeader condition.header :=
  ⟨condition.text, condition.ne_nil, condition.braces_not_mem.1, rfl⟩

theorem Condition.header_append (condition : Condition) (rest : Text) :
    condition.header ++ rest =
      '@' :: ("media".toList ++ (condition.text ++ '\x7b' :: rest)) := by
  calc condition.header ++ rest
      = "@media".toList ++ condition.text ++ ['\x7b'] ++ rest := rfl
    _ = '@' :: ("media".toList ++ (condition.text ++ '\x7b' :: rest)) := by simp

theorem WrittenRule.allIn_header_append {rule : WrittenRule} (hasBody : rule.hasBody = true)
    {gap lead : Text} (gapBlank : Blank gap) (leadBlank : Blank lead) (condition : Condition)
    (rest : Text) :
    Rule.allIn (gap ++ (condition.header ++ (lead ++ (rule.text ++ rest)))) =
      rule.found (some condition.header) :: Rule.allIn rest := by
  have header : ∀ header ∈ some condition.header, IsHeader header := by
    intro header member
    obtain rfl := Option.some.inj member
    exact condition.isHeader_header
  have read := Rule.allIn_append_text_append (rule.wellFormed hasBody leadBlank header) nofun
    (gapBlank.not_mem Text.isBlank_open) (gapBlank.not_mem Text.isBlank_at) rest
  rw [rule_occurrence leadBlank] at read
  simpa [Occurrence.text, WrittenRule.text] using read

/-- A header with nothing to read behind it is given up, and leaves at most one rule without a
header. -/
theorem Condition.exists_allIn_header_append (condition : Condition) {tail : Text}
    (atAbsent : '@' ∉ tail) (closeAbsent : '\x7d' ∉ tail)
    (undivided : Occurrence.parts? tail = none) :
    ∃ found : List Rule, (∀ rule ∈ found, rule.media = none) ∧
      ∀ gap, Blank gap → ∀ rest,
        Rule.allIn (gap ++ (condition.header ++ (tail ++ '\x7d' :: rest))) =
          found ++ Rule.allIn rest := by
  have openAbsent : '\x7b' ∉ "@media".toList ++ condition.text :=
    List.not_mem_append (by decide) condition.braces_not_mem.1
  have closeAbsentBefore : '\x7d' ∉ "@media".toList ++ condition.text :=
    List.not_mem_append (by decide) condition.braces_not_mem.2
  have headless := Occurrence.headless_append_open openAbsent closeAbsent atAbsent undivided
  obtain ⟨found, noMedia, read⟩ := Rule.exists_allIn_append_close headless
    (List.not_mem_append closeAbsentBefore (by simp [closeAbsent]))
  refine ⟨found, noMedia, ?_⟩
  intro gap gapBlank rest
  rw [condition.header_append, Rule.allIn_blank_append_cons_of_stop gapBlank (.inl rfl),
    ← condition.header_append, ← read rest, List.append_assoc, List.cons_append]
  exact congrArg Rule.allIn (by simp [header_append])

def hasHeader (rule : Rule) : Bool := rule.media.isSome

theorem countP_hasHeader_eq_zero {rules : List Rule} (noMedia : ∀ rule ∈ rules, rule.media = none) :
    rules.countP hasHeader = 0 := by
  rw [List.countP_eq_zero]
  intro rule member
  simp [hasHeader, noMedia rule member]

theorem countP_hasHeader_map_found (rules : List WrittenRule) :
    (rules.map (WrittenRule.found none)).countP hasHeader = 0 := by
  apply countP_hasHeader_eq_zero
  intro rule member
  obtain ⟨written, _, rfl⟩ := List.mem_map.mp member
  rfl

/-- What a scan finds in a written item, whatever stands behind it. -/
structure Contributes (item : WrittenItem) (written : Text) (found : List Rule) : Prop where
  exact : item.KeepsHeader → found = item.found
  headers : found.countP hasHeader = [item].countP WrittenItem.showsHeader
  read : ∀ gap, Blank gap → ∀ rest,
    Rule.allIn (gap ++ (written ++ rest)) = found ++ Rule.allIn rest

/-! ## Items -/

theorem WrittenRule.contributes (rule : WrittenRule) :
    Contributes (.style rule) rule.text (WrittenItem.found (.style rule)) where
  exact := fun _ => rfl
  headers := by
    cases hasBody : rule.hasBody with
    | false => simp [WrittenItem.found, hasBody, WrittenItem.showsHeader]
    | true =>
        simp [WrittenItem.found, hasBody, WrittenItem.showsHeader, hasHeader, WrittenRule.found]
  read := by
    intro gap gapBlank rest
    cases hasBody : rule.hasBody with
    | false => simp [WrittenItem.found, hasBody, WrittenRule.allIn_of_empty hasBody gapBlank]
    | true => simp [WrittenItem.found, hasBody, WrittenRule.allIn_of_hasBody hasBody gapBlank]

theorem WrittenBlock.exists_contributes (block : WrittenBlock) {inner : Text}
    (spread : Spread WrittenRule.Writes block.rules inner) :
    ∃ found, Contributes (.media block) (block.condition.header ++ (inner ++ ['\x7d'])) found := by
  obtain ⟨condition, rules, filled⟩ := block
  cases spread with
  | nil _ => exact absurd rfl filled
  | @cons lead written behind _ first later leadBlank writes laterSpread joined =>
      obtain rfl : written = first.text := writes
      cases hasBody : first.hasBody with
      | true =>
          refine ⟨first.found (some condition.header) ::
            (later.filter WrittenRule.hasBody).map (WrittenRule.found none), ?_, ?_, ?_⟩
          · intro _
            simp [WrittenItem.found, WrittenBlock.found, List.filter_cons_of_pos hasBody]
          · rw [List.countP_cons_of_pos (by simp [hasHeader, WrittenRule.found]),
              countP_hasHeader_map_found]
            simp [WrittenItem.showsHeader, WrittenBlock.opensWithBody, hasBody]
          · intro gap gapBlank rest
            have read := WrittenRule.allIn_header_append hasBody gapBlank leadBlank condition
              (behind ++ '\x7d' :: rest)
            rw [laterSpread.allIn_close] at read
            simpa [joined] using read
      | false =>
          -- The selectors end in a brace with nothing to read behind it, so the header is given up.
          obtain ⟨found, noMedia, read⟩ := condition.exists_allIn_header_append
            (List.not_mem_append (first.at_not_mem_append leadBlank) (by simp))
            (List.not_mem_append (first.close_not_mem_append leadBlank) (by simp))
            (Occurrence.parts?_append_open (first.open_not_mem_append leadBlank))
          refine ⟨found ++ (later.filter WrittenRule.hasBody).map (WrittenRule.found none), ?_, ?_,
            ?_⟩
          · intro keeps
            simp [WrittenItem.KeepsHeader, WrittenBlock.opensWithBody, hasBody] at keeps
          · rw [List.countP_append, countP_hasHeader_eq_zero noMedia, countP_hasHeader_map_found]
            simp [WrittenItem.showsHeader, WrittenBlock.opensWithBody, hasBody]
          · intro gap gapBlank rest
            have here := read gap gapBlank (behind ++ '\x7d' :: rest)
            rw [laterSpread.allIn_close] at here
            simpa [joined, WrittenRule.text, first.body_eq_nil hasBody] using here

theorem hollow_contributes (condition : Condition) {inner : Text} (blank : Blank inner) :
    Contributes (.hollow condition inner blank) (condition.header ++ (inner ++ ['\x7d']))
      (WrittenItem.found (.hollow condition inner blank)) := by
  obtain ⟨found, noMedia, read⟩ := condition.exists_allIn_header_append
    (blank.not_mem Text.isBlank_at) (blank.not_mem Text.isBlank_close)
    (Occurrence.parts?_of_not_mem (blank.not_mem Text.isBlank_open))
  have alone : WrittenItem.found (.hollow condition inner blank) = found := by
    have here := read [] Text.blank_nil []
    rwa [Rule.allIn_eq_nil_of_not_mem List.not_mem_nil, List.append_nil] at here
  rw [alone]
  refine ⟨fun _ => alone.symm, countP_hasHeader_eq_zero noMedia, ?_⟩
  intro gap gapBlank rest
  simpa using read gap gapBlank rest

theorem WrittenItem.Writes.exists_contributes {item : WrittenItem} {written : Text}
    (writes : item.Writes written) : ∃ found, Contributes item written found := by
  cases item with
  | style rule =>
      obtain rfl : written = rule.text := writes
      exact ⟨_, rule.contributes⟩
  | media block =>
      obtain ⟨inner, spread, rfl⟩ := writes
      exact block.exists_contributes spread
  | hollow condition inner blank =>
      obtain rfl : written = condition.header ++ (inner ++ ['\x7d']) := writes
      exact ⟨_, hollow_contributes condition blank⟩

/-! ## Stylesheets -/

theorem Spread.allIn_eq {items : List WrittenItem} {text : Text}
    (spread : Spread WrittenItem.Writes items text) :
    ((∀ item ∈ items, item.KeepsHeader) → Rule.allIn text = items.flatMap WrittenItem.found) ∧
      (Rule.allIn text).countP hasHeader = items.countP WrittenItem.showsHeader := by
  induction spread with
  | nil blank =>
      rw [Rule.allIn_eq_nil_of_not_mem (blank.not_mem Text.isBlank_open)]
      exact ⟨fun _ => rfl, rfl⟩
  | @cons _ _ _ _ item items leadBlank writes _ joined ih =>
      obtain ⟨found, contributes⟩ := writes.exists_contributes
      rw [joined, contributes.read _ leadBlank]
      constructor
      · intro keeps
        obtain ⟨keepsHere, keepsLater⟩ := List.forall_mem_cons.mp keeps
        rw [contributes.exact keepsHere, ih.1 keepsLater, List.flatMap_cons]
      · rw [List.countP_append, contributes.headers, ih.2, ← List.countP_append,
          List.singleton_append]

theorem WrittenBlock.opensWithBody_withoutEmpty (block : WrittenBlock) :
    block.withoutEmpty.opensWithBody = true := by
  obtain ⟨first, later, rules⟩ := List.exists_cons_of_ne_nil block.filled
  have member : first ∈ block.rules.filter WrittenRule.hasBody := by simp [rules]
  simp [opensWithBody, withoutEmpty, rules, (List.mem_filter.mp member).2]

theorem WrittenItem.keepsHeader_of_mem_withoutEmpty {item other : WrittenItem}
    (member : other ∈ item.withoutEmpty) : other.KeepsHeader := by
  cases item with
  | style rule =>
      cases hasBody : rule.hasBody with
      | false => simp [withoutEmpty, hasBody] at member
      | true =>
          obtain rfl : other = .style rule := by simpa [withoutEmpty, hasBody] using member
          trivial
  | media block =>
      obtain rfl := List.mem_singleton.mp member
      exact block.opensWithBody_withoutEmpty
  | hollow condition inner blank =>
      obtain rfl := List.mem_singleton.mp member
      trivial

theorem WrittenItem.flatMap_found_withoutEmpty (item : WrittenItem) :
    item.withoutEmpty.flatMap found = item.found := by
  cases item with
  | style rule =>
      cases hasBody : rule.hasBody with
      | false => simp [withoutEmpty, found, hasBody]
      | true => simp [withoutEmpty, found, hasBody]
  | media block =>
      simp [withoutEmpty, found, WrittenBlock.found, WrittenBlock.withoutEmpty]
  | hollow condition inner blank => simp [withoutEmpty]

theorem WrittenItem.countP_showsHeader_le (item : WrittenItem) :
    [item].countP showsHeader ≤ item.withoutEmpty.countP showsHeader ∧
      ([item].countP showsHeader = item.withoutEmpty.countP showsHeader → item.KeepsHeader) := by
  cases item with
  | style rule => exact ⟨Nat.zero_le _, fun _ => trivial⟩
  | media block =>
      have kept : (withoutEmpty (.media block)).countP showsHeader = 1 := by
        simp [withoutEmpty, showsHeader, block.opensWithBody_withoutEmpty]
      rw [kept]
      cases opens : block.opensWithBody with
      | false => simp [showsHeader, opens]
      | true => simp [showsHeader, KeepsHeader, opens]
  | hollow condition inner blank => exact ⟨Nat.zero_le _, fun _ => trivial⟩

theorem countP_showsHeader_le (items : List WrittenItem) :
    items.countP WrittenItem.showsHeader ≤
        (items.flatMap WrittenItem.withoutEmpty).countP WrittenItem.showsHeader ∧
      (items.countP WrittenItem.showsHeader =
          (items.flatMap WrittenItem.withoutEmpty).countP WrittenItem.showsHeader →
        ∀ item ∈ items, item.KeepsHeader) := by
  induction items with
  | nil => exact ⟨Nat.le_refl _, fun _ => nofun⟩
  | cons item items ih =>
      obtain ⟨atMost, keeps⟩ := item.countP_showsHeader_le
      obtain ⟨atMostLater, keepsLater⟩ := ih
      rw [← List.singleton_append, List.countP_append, List.flatMap_append, List.flatMap_singleton,
        List.countP_append]
      refine ⟨Nat.add_le_add atMost atMostLater, ?_⟩
      intro same
      rw [List.singleton_append, List.forall_mem_cons]
      exact ⟨keeps (by omega), keepsLater (by omega)⟩

/-- The rules of a flat stylesheet without its empty rules are those that have a body, each media
header with the first of its block. They are the rules of the stylesheet with its empty rules
exactly if no media block begins with an empty rule. -/
theorem allIn_withoutEmpty {items : List WrittenItem} {text shorter : Text}
    (spread : Spread WrittenItem.Writes items text)
    (spreadShorter :
      Spread WrittenItem.Writes (items.flatMap WrittenItem.withoutEmpty) shorter) :
    Rule.allIn shorter = items.flatMap WrittenItem.found ∧
      (Rule.allIn text = Rule.allIn shorter ↔
        ∀ block, .media block ∈ items → block.opensWithBody = true) := by
  have keepsShorter : ∀ item ∈ items.flatMap WrittenItem.withoutEmpty, item.KeepsHeader := by
    intro item member
    obtain ⟨_, _, here⟩ := List.mem_flatMap.mp member
    exact WrittenItem.keepsHeader_of_mem_withoutEmpty here
  have foundShorter : Rule.allIn shorter = items.flatMap WrittenItem.found := by
    rw [spreadShorter.allIn_eq.1 keepsShorter, List.flatMap_assoc]
    simp only [WrittenItem.flatMap_found_withoutEmpty]
  refine ⟨foundShorter, ?_⟩
  constructor
  · intro same block member
    have counted := spread.allIn_eq.2
    rw [same, spreadShorter.allIn_eq.2] at counted
    exact (countP_showsHeader_le items).2 counted.symm (.media block) member
  · intro opens
    rw [foundShorter]
    refine spread.allIn_eq.1 ?_
    intro item member
    cases item with
    | style rule => trivial
    | media block => exact opens block member
    | hollow condition inner blank => trivial

theorem allIn_withoutEmpty_later :
    let empty : WrittenRule :=
      ⟨"a".toList, [], by decide, by decide, by decide⟩
    let first : WrittenRule :=
      ⟨"b".toList, "c".toList, by decide, by decide, by decide⟩
    let last : WrittenRule :=
      ⟨"d".toList, "@e".toList, by decide, by decide, by decide⟩
    let block : WrittenBlock :=
      ⟨⟨" x ".toList, by decide, by decide⟩, [first, empty, last], by decide⟩
    let text := "a\x7b\x7d @media x \x7bb\x7bc\x7da\x7b\x7d\nd\x7b@e\x7d\x7d".toList
    let shorter := "@media x \x7bb\x7bc\x7dd\x7b@e\x7d\x7d".toList
    Spread WrittenItem.Writes [.style empty, .media block] text ∧
      Spread WrittenItem.Writes
        (List.flatMap WrittenItem.withoutEmpty [.style empty, .media block]) shorter ∧
      Rule.allIn text = Rule.allIn shorter := by
  intro empty first last block text shorter
  have none : Blank [] := Text.blank_nil
  have inner : Spread WrittenRule.Writes [first, empty, last]
      "b\x7bc\x7da\x7b\x7d\nd\x7b@e\x7d".toList :=
    .cons none rfl (.cons none rfl (.cons Text.blank_lineBreak rfl (.nil none) rfl) rfl) rfl
  have innerShorter : Spread WrittenRule.Writes [first, last] "b\x7bc\x7dd\x7b@e\x7d".toList :=
    .cons none rfl (.cons none rfl (.nil none) rfl) rfl
  have spread : Spread WrittenItem.Writes [.style empty, .media block] text :=
    .cons none rfl (.cons Text.blank_space ⟨_, inner, rfl⟩ (.nil none) rfl) rfl
  have spreadShorter : Spread WrittenItem.Writes
      (List.flatMap WrittenItem.withoutEmpty [.style empty, .media block]) shorter :=
    .cons none ⟨_, innerShorter, rfl⟩ (.nil none) rfl
  have opens : ∀ other, .media other ∈ [WrittenItem.style empty, .media block] →
      other.opensWithBody = true := by
    intro other member
    obtain rfl : other = block := by simpa using member
    decide
  exact ⟨spread, spreadShorter, (allIn_withoutEmpty spread spreadShorter).2.mpr opens⟩

theorem not_forall_allIn_withoutEmpty :
    ¬ ∀ items text shorter, Spread WrittenItem.Writes items text →
      Spread WrittenItem.Writes (items.flatMap WrittenItem.withoutEmpty) shorter →
      Rule.allIn text = Rule.allIn shorter := by
  intro all
  let empty : WrittenRule :=
    ⟨"a".toList, [], by decide, by decide, by decide⟩
  let other : WrittenRule :=
    ⟨"b".toList, "c".toList, by decide, by decide, by decide⟩
  let block : WrittenBlock :=
    ⟨⟨" x".toList, by decide, by decide⟩, [empty, other], by decide⟩
  have none : Blank [] := Text.blank_nil
  have inner : Spread WrittenRule.Writes [empty, other] "a\x7b\x7db\x7bc\x7d".toList :=
    .cons none rfl (.cons none rfl (.nil none) rfl) rfl
  have innerShorter : Spread WrittenRule.Writes [other] "b\x7bc\x7d".toList :=
    .cons none rfl (.nil none) rfl
  have same := all [.media block] "@media x\x7ba\x7b\x7db\x7bc\x7d\x7d".toList
    "@media x\x7bb\x7bc\x7d\x7d".toList (.cons none ⟨_, inner, rfl⟩ (.nil none) rfl)
    (.cons none ⟨_, innerShorter, rfl⟩ (.nil none) rfl)
  exact absurd same (by decide +kernel)

end ScopedCss.FlatSheet
