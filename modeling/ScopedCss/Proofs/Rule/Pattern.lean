import ScopedCss.Proofs.Rule.Search
import ScopedCss.Proofs.Text.Pattern
import ScopedCss.Rule.Pattern

set_option autoImplicit false

/-!
# What the pattern of a rule reads

The pattern of a rule prefers, among all the ways it can be read at a position, the way an occurrence
is read there (`preferred?_pattern`). So a search for the pattern finds what a search for occurrences
finds, and its readings of a whole text are the rules of the text (`matchAll_eq_allIn`).
-/

namespace ScopedCss

/-- An occurrence with its parts captured, as a reading of the pattern of a rule. -/
def Occurrence.reading (occurrence : Occurrence) (rest : Text) : Text.Pattern.Reading Rule.Part :=
  ⟨occurrence.text, occurrence.media.toList.map (Rule.Part.media, ·) ++
    [(.selectors, occurrence.selectors), (.declarations, occurrence.declarations)], rest⟩

namespace Rule

open Occurrence
open Text (Pattern runBefore?)
open Text.Pattern (Reading preferred?)

/-! ## The parts of the pattern -/

def declarationsPattern : Pattern Part :=
  .sequence (.literal ['\x7b'])
    (.sequence (.captured .declarations (.oneOrMore (· != '\x7d'))) (.literal ['\x7d']))

def isSelectorCharacter (character : Char) : Bool := character != '@' && character != '\x7d'

def barePattern : Pattern Part :=
  .sequence (.captured .selectors (.oneOrMore isSelectorCharacter)) declarationsPattern

theorem pattern_eq :
    pattern = .sequence (.optional (.captured .media headerPattern)) barePattern := rfl

theorem readings_headerPattern (text : Text) :
    headerPattern.readings text =
      (header? text).toList.map fun read => ⟨read.1, [], read.2⟩ := by
  cases keyword : Text.afterStart? mediaKeyword text with
  | none => simp [headerPattern, Pattern.readings, header?, keyword]
  | some afterKeyword =>
      have keywordRead : (Pattern.literal mediaKeyword : Pattern Part).readings text =
          [⟨mediaKeyword, [], afterKeyword⟩] := by
        simp only [Pattern.readings, keyword]
      rw [headerPattern, Pattern.readings, keywordRead, List.flatMap_singleton,
        Text.Pattern.readings_run]
      cases opened : Text.cutAt? '\x7b' afterKeyword with
      | none => simp [header?, runBefore?, keyword, opened]
      | some parts =>
          by_cases empty : parts.1 = []
          · simp [header?, runBefore?, keyword, opened, empty]
          · simp [header?, runBefore?, keyword, opened, empty, Reading.followedBy]

theorem preferred?_declarationsPattern_cons (rest : Text) :
    declarationsPattern.preferred? ('\x7b' :: rest) =
      (runBefore? '\x7d' rest).map fun parts =>
        ⟨'\x7b' :: (parts.1 ++ ['\x7d']), [(.declarations, parts.1)], parts.2⟩ := by
  rw [preferred?, declarationsPattern, Pattern.readings, Text.Pattern.readings_literal_cons,
    List.flatMap_singleton, Text.Pattern.readings_captured_run]
  cases run : runBefore? '\x7d' rest with
  | none => rfl
  | some parts => rfl

theorem preferred?_declarationsPattern_eq_none {text : Text} (closed : text.head? ≠ some '\x7b') :
    declarationsPattern.preferred? text = none := by
  rw [preferred?, declarationsPattern, Pattern.readings,
    Text.Pattern.readings_literal_eq_nil closed]
  rfl

/-- From the brace behind the selectors on, a rule is read up to the first closing brace. -/
theorem preferred?_declarationsPattern_eq_some_iff {text : Text} {reading : Reading Part} :
    declarationsPattern.preferred? text = some reading ↔
      ∃ declarations rest, text = '\x7b' :: (declarations ++ '\x7d' :: rest) ∧
        '\x7d' ∉ declarations ∧ declarations ≠ [] ∧
        reading = ⟨'\x7b' :: (declarations ++ ['\x7d']), [(.declarations, declarations)], rest⟩ := by
  constructor
  · intro read
    have opened : text.head? = some '\x7b' := by
      by_contra closed
      rw [preferred?_declarationsPattern_eq_none closed] at read
      cases read
    obtain ⟨after, rfl⟩ := List.head?_eq_some_iff.mp opened
    rw [preferred?_declarationsPattern_cons, Option.map_eq_some_iff] at read
    obtain ⟨⟨declarations, rest⟩, run, rfl⟩ := read
    obtain ⟨rfl, absent, nonempty⟩ := Text.runBefore?_eq_some_iff.mp run
    exact ⟨declarations, rest, rfl, absent, nonempty, rfl⟩
  · intro stands
    obtain ⟨declarations, rest, rfl, absent, nonempty, rfl⟩ := stands
    have run := Text.runBefore?_eq_some_iff.mpr
      ⟨Eq.refl (declarations ++ '\x7d' :: rest), absent, nonempty⟩
    rw [preferred?_declarationsPattern_cons, run, Option.map_some]

/-! ## Selectors -/

theorem bare?_cons_of_bare?_eq_some {character : Char} {text rest : Text} {occurrence : Occurrence}
    (atAbsent : character ≠ '@') (closeAbsent : character ≠ '\x7d')
    (read : bare? text = some (occurrence, rest)) :
    bare? (character :: text) =
      some ({ occurrence with selectors := character :: occurrence.selectors }, rest) := by
  obtain ⟨media, wellFormed, rfl⟩ := bare?_eq_some_iff.mp read
  rw [bare?_eq_some_iff]
  refine ⟨media, ?_, ?_⟩
  · exact { wellFormed with
      selectors_ne_nil := List.cons_ne_nil _ _
      at_not_mem_selectors := by simp [wellFormed.at_not_mem_selectors, Ne.symm atAbsent]
      close_not_mem_selectors := by simp [wellFormed.close_not_mem_selectors, Ne.symm closeAbsent] }
  · simp [Occurrence.text, media]

theorem undivided_of_bare?_eq_none {declarations rest : Text} (closeAbsent : '\x7d' ∉ declarations)
    (nothing : bare? ('\x7b' :: (declarations ++ '\x7d' :: rest)) = none) :
    Undivided declarations := by
  intro before after split nonempty
  subst split
  -- Otherwise the text up to the later brace could be selectors.
  by_contra atAbsent
  rw [List.mem_append, not_or, List.mem_cons, not_or] at closeAbsent
  have readable := bare?_ne_none (List.cons_ne_nil '\x7b' before) (by simp [atAbsent])
    (by simp [closeAbsent.1]) nonempty closeAbsent.2.2 rest
  exact readable (by simpa using nothing)

/-- Where no rule starts, the character in front can only be the whole of the selectors. -/
theorem bare?_cons_eq_some_iff_of_bare?_eq_none {character : Char} {text rest : Text}
    {occurrence : Occurrence} (atAbsent : character ≠ '@') (closeAbsent : character ≠ '\x7d')
    (nothing : bare? text = none) :
    bare? (character :: text) = some (occurrence, rest) ↔
      ∃ declarations, occurrence = ⟨none, [character], declarations⟩ ∧
        text = '\x7b' :: (declarations ++ '\x7d' :: rest) ∧ '\x7d' ∉ declarations ∧
        declarations ≠ [] := by
  constructor
  · intro read
    obtain ⟨noMedia, wellFormed, split⟩ := bare?_eq_some_iff.mp read
    obtain ⟨media, selectors, declarations⟩ := occurrence
    obtain rfl : media = none := noMedia
    cases selectors with
    | nil => exact absurd rfl wellFormed.selectors_ne_nil
    | cons first later =>
        obtain ⟨rfl, rfl⟩ := List.cons.inj split
        cases later with
        | nil =>
            exact ⟨declarations, rfl, by simp, wellFormed.close_not_mem_declarations,
              wellFormed.declarations_ne_nil⟩
        | cons second later =>
            have readable := bare?_ne_none (List.cons_ne_nil second later)
              (fun member => wellFormed.at_not_mem_selectors (List.mem_cons_of_mem _ member))
              (fun member => wellFormed.close_not_mem_selectors (List.mem_cons_of_mem _ member))
              wellFormed.declarations_ne_nil wellFormed.close_not_mem_declarations rest
            exact absurd (by simpa using nothing) readable
  · intro stands
    obtain ⟨declarations, rfl, rfl, closeAbsentDeclarations, nonempty⟩ := stands
    have undivided := undivided_of_bare?_eq_none closeAbsentDeclarations nothing
    rw [bare?_eq_some_iff]
    refine ⟨rfl, ?_, by simp [Occurrence.text]⟩
    exact {
      header := by simp
      selectors_ne_nil := List.cons_ne_nil _ _
      at_not_mem_selectors := by simp [Ne.symm atAbsent]
      close_not_mem_selectors := by simp [Ne.symm closeAbsent]
      declarations_ne_nil := nonempty
      close_not_mem_declarations := closeAbsentDeclarations
      undivided }

theorem bare?_cons_eq_none {character : Char} (stop : character = '@' ∨ character = '\x7d')
    (text : Text) : bare? (character :: text) = none := by
  rw [Option.eq_none_iff_forall_ne_some]
  intro found read
  obtain ⟨occurrence, rest⟩ := found
  obtain ⟨noMedia, wellFormed, split⟩ := bare?_eq_some_iff.mp read
  obtain ⟨media, selectors, declarations⟩ := occurrence
  obtain rfl : media = none := noMedia
  cases selectors with
  | nil => exact wellFormed.selectors_ne_nil rfl
  | cons first later =>
      obtain ⟨rfl, _⟩ := List.cons.inj split
      cases stop with
      | inl atSign => exact wellFormed.at_not_mem_selectors (by simp [atSign])
      | inr close => exact wellFormed.close_not_mem_selectors (by simp [close])

/-- The reading of a rule that takes `selectors` for its selectors. -/
def withSelectors? (selectors : Reading Part) : Option (Reading Part) :=
  (declarationsPattern.preferred? selectors.rest).map (selectors.capture .selectors).followedBy

theorem withSelectors?_of_bare?_eq_none {character : Char} {text : Text} (atAbsent : character ≠ '@')
    (closeAbsent : character ≠ '\x7d') (nothing : bare? text = none) (lead : Text) :
    withSelectors? ⟨lead ++ [character], [], text⟩ =
      (bare? (character :: text)).map fun read =>
        Occurrence.reading { read.1 with selectors := lead ++ read.1.selectors } read.2 := by
  cases block : declarationsPattern.preferred? text with
  | some reading =>
      obtain ⟨declarations, rest, split, absent, nonempty, rfl⟩ :=
        preferred?_declarationsPattern_eq_some_iff.mp block
      have alone : bare? (character :: text) = some (⟨none, [character], declarations⟩, rest) :=
        (bare?_cons_eq_some_iff_of_bare?_eq_none atAbsent closeAbsent nothing).mpr
          ⟨declarations, rfl, split, absent, nonempty⟩
      rw [withSelectors?, block, alone]
      simp [Reading.capture, Reading.followedBy, Occurrence.reading, Occurrence.text]
  | none =>
      have alone : bare? (character :: text) = none := by
        rw [Option.eq_none_iff_forall_ne_some]
        intro found read
        obtain ⟨occurrence, rest⟩ := found
        obtain ⟨declarations, _, split, absent, nonempty⟩ :=
          (bare?_cons_eq_some_iff_of_bare?_eq_none atAbsent closeAbsent nothing).mp read
        have readable := preferred?_declarationsPattern_eq_some_iff.mpr
          ⟨declarations, rest, split, absent, nonempty, rfl⟩
        rw [block] at readable
        cases readable
      rw [withSelectors?, block, alone]
      rfl

/-- Of all stretches that can be selectors, the longest that has declarations behind it is the one
that an occurrence takes. -/
theorem findSome?_stretches (lead text : Text) :
    ((Text.Pattern.stretches isSelectorCharacter text).findSome? fun more =>
        withSelectors? ⟨lead ++ more.consumed, more.captures, more.rest⟩) =
      (bare? text).map fun read =>
        Occurrence.reading { read.1 with selectors := lead ++ read.1.selectors } read.2 := by
  induction text generalizing lead with
  | nil => rfl
  | cons character text ih =>
      by_cases accepted : isSelectorCharacter character = true
      · have isSelector := accepted
        simp only [isSelectorCharacter, Bool.and_eq_true, bne_iff_ne, ne_eq] at isSelector
        obtain ⟨atAbsent, closeAbsent⟩ := isSelector
        have longer := ih (lead ++ [character])
        simp only [List.append_assoc, List.singleton_append] at longer
        rw [Text.Pattern.stretches_cons accepted, List.findSome?_append, List.findSome?_map]
        simp only [Function.comp_def, Reading.followedBy, List.nil_append, List.singleton_append,
          longer, List.findSome?_singleton]
        cases here : bare? text with
        | some read =>
            rw [bare?_cons_of_bare?_eq_some atAbsent closeAbsent here]
            rfl
        | none =>
            rw [Option.map_none, Option.none_or]
            exact withSelectors?_of_bare?_eq_none atAbsent closeAbsent here lead
      · have stop : character = '@' ∨ character = '\x7d' := by
          by_contra neither
          rw [not_or] at neither
          exact accepted (by simp [isSelectorCharacter, neither])
        rw [Text.Pattern.stretches_eq_nil (by simpa using accepted), bare?_cons_eq_none stop]
        rfl

theorem preferred?_barePattern (text : Text) :
    barePattern.preferred? text = (bare? text).map fun read => read.1.reading read.2 := by
  have stretches := findSome?_stretches [] text
  rw [barePattern, Text.Pattern.preferred?_sequence, Pattern.readings, List.findSome?_map,
    Pattern.readings]
  exact stretches

/-! ## Media headers -/

theorem media_eq_none_of_bare?_eq_some {text rest : Text} {occurrence : Occurrence}
    (read : bare? text = some (occurrence, rest)) : occurrence.media = none :=
  (bare?_eq_some_iff.mp read).1

theorem preferred?_headed (text : Text) :
    (Pattern.sequence (.captured .media headerPattern) barePattern).preferred? text =
      (headed? text).map fun read => read.1.reading read.2 := by
  rw [Text.Pattern.preferred?_sequence, Pattern.readings, readings_headerPattern, List.findSome?_map,
    List.findSome?_map]
  cases headerRead : header? text with
  | none => simp [headed?, headerRead]
  | some header =>
      cases bareRead : bare? header.2 with
      | none => simp [headed?, headerRead, bareRead, preferred?_barePattern, Reading.capture]
      | some read =>
          have noMedia := media_eq_none_of_bare?_eq_some bareRead
          simp [headed?, headerRead, bareRead, preferred?_barePattern, Reading.capture,
            Reading.followedBy, Occurrence.reading, Occurrence.text, noMedia]

/-- At the start of a text the pattern is read as an occurrence is. -/
theorem preferred?_pattern (text : Text) :
    pattern.preferred? text = (at? text).map fun read => read.1.reading read.2 := by
  rw [pattern_eq, Text.Pattern.preferred?_optional_sequence, preferred?_headed,
    preferred?_barePattern, at?, Option.orElse_eq_orElse, Option.orElse_eq_or, Option.map_or]

/-! ## Searching -/

theorem search?_pattern (text : Text) :
    pattern.search? text =
      (next? text).map fun found => (found.gap, found.occurrence.reading found.rest) := by
  induction text with
  | nil => rw [Text.Pattern.search?, ← preferred?, preferred?_pattern]; rfl
  | cons character text ih =>
      rw [Text.Pattern.search?, ← preferred?, preferred?_pattern, ih]
      cases here : at? (character :: text) with
      | some read => simp only [next?, here, Option.map_some]
      | none =>
          rw [next?_cons_of_at?_eq_none here, Option.map_none, Option.map_map, Option.map_map]
          rfl

theorem ofReading_reading (occurrence : Occurrence) (rest : Text) :
    ofReading (occurrence.reading rest) = occurrence.rule := by
  obtain ⟨media, selectors, declarations⟩ := occurrence
  cases media with
  | none => rfl
  | some header => rfl

theorem matchAll_eq_allIn (text : Text) : matchAll text = allIn text := by
  induction text using Segmentation.of.induct with
  | case1 text search =>
      rw [matchAll, Text.Pattern.searchAll, search?_pattern, search, allIn_of_next?_eq_none search]
      rfl
  | case2 text found search ih =>
      have shorter : (found.occurrence.reading found.rest).rest.length < text.length :=
        next?_rest_length_lt search
      rw [matchAll, Text.Pattern.searchAll, search?_pattern, search, allIn_of_next?_eq_some search,
        ← ih]
      simp only [Option.map_some, if_pos shorter, List.map_cons, ofReading_reading]
      rfl

end Rule

end ScopedCss
