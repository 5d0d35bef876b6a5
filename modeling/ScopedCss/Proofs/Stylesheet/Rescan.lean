import ScopedCss.Proofs.Rule.Closed
import ScopedCss.Proofs.Rule.Traversal

set_option autoImplicit false

/-!
# Scanning written lines

A scan of written lines finds one rule in each (`allIn_append_lines_eq`), and it divides the line at
the last brace that can divide it. That is the brace written between the selectors and the
declarations of the rule, unless the declarations hold one that can divide them as well: then what
comes before that brace is read as selectors. The text in front of the first line is taken into the
selectors of its rule, unless a media header stands between.
-/

namespace ScopedCss

namespace Occurrence

/-- An occurrence that is read from its first character to its last, though not always divided at
the brace that it gives. -/
structure Enclosed (occurrence : Occurrence) : Prop where
  header : ∀ header ∈ occurrence.media, IsHeader header
  selectors_ne_nil : occurrence.selectors ≠ []
  at_not_mem_selectors : '@' ∉ occurrence.selectors
  close_not_mem_selectors : '\x7d' ∉ occurrence.selectors
  declarations_ne_nil : occurrence.declarations ≠ []
  close_not_mem_declarations : '\x7d' ∉ occurrence.declarations

/-- The occurrence in the same text that is divided at the last brace. -/
def redivide (occurrence : Occurrence) : Occurrence :=
  match cutAtLastBrace? occurrence.declarations with
  | none => occurrence
  | some (front, back) =>
      ⟨occurrence.media, occurrence.selectors ++ '\x7b' :: front, back⟩

theorem redivide_eq_self {occurrence : Occurrence} (undivided : Undivided occurrence.declarations) :
    occurrence.redivide = occurrence := by
  rw [redivide, cutAtLastBrace?_eq_none_iff.mpr undivided]

theorem redivide_eq_of_cut {occurrence : Occurrence} {front back : Text}
    (cut : cutAtLastBrace? occurrence.declarations = some (front, back)) :
    occurrence.redivide =
      ⟨occurrence.media, occurrence.selectors ++ '\x7b' :: front, back⟩ := by
  rw [redivide, cut]

theorem media_redivide (occurrence : Occurrence) : occurrence.redivide.media = occurrence.media := by
  rw [redivide]
  split <;> rfl

theorem text_redivide (occurrence : Occurrence) : occurrence.redivide.text = occurrence.text := by
  cases cut : cutAtLastBrace? occurrence.declarations with
  | none => rw [redivide, cut]
  | some parts =>
      have split := cutAtLastBrace?_eq_append cut
      simp [redivide_eq_of_cut cut, text, split]

theorem Enclosed.wellFormed_redivide {occurrence : Occurrence} (enclosed : occurrence.Enclosed) :
    occurrence.redivide.WellFormed := by
  cases cut : cutAtLastBrace? occurrence.declarations with
  | none =>
      have undivided := cutAtLastBrace?_eq_none_iff.mp cut
      rw [redivide_eq_self undivided]
      exact { enclosed with undivided }
  | some parts =>
      obtain ⟨front, back⟩ := parts
      obtain ⟨split, atAbsent, nonempty, undivided⟩ := cutAtLastBrace?_eq_some_iff.mp cut
      have closeAbsent := enclosed.close_not_mem_declarations
      rw [split, List.mem_append, not_or, List.mem_cons, not_or] at closeAbsent
      rw [redivide_eq_of_cut cut]
      exact {
        header := enclosed.header
        selectors_ne_nil := by simp
        at_not_mem_selectors := by simp [enclosed.at_not_mem_selectors, atAbsent]
        close_not_mem_selectors := by simp [enclosed.close_not_mem_selectors, closeAbsent.1]
        declarations_ne_nil := nonempty
        close_not_mem_declarations := closeAbsent.2.2
        undivided }

end Occurrence

namespace Rule

open Occurrence (Enclosed)

/-- A rule whose line is read as one rule. The rules that a scan finds are such. -/
structure Scannable (rule : Rule) : Prop extends Closed rule where
  at_not_mem_selectors : '@' ∉ rule.selectors

/-- Text that can stand before selectors without ending a rule or beginning a media header. -/
structure Readable (text : Text) : Prop where
  at_not_mem : '@' ∉ text
  close_not_mem : '\x7d' ∉ text

instance (text : Text) : Decidable (Readable text) :=
  decidable_of_iff ('@' ∉ text ∧ '\x7d' ∉ text)
    ⟨fun ⟨atSign, close⟩ => ⟨atSign, close⟩, fun ⟨atSign, close⟩ => ⟨atSign, close⟩⟩

theorem readable_of_blank {text : Text} (blank : Text.Blank text) : Readable text :=
  ⟨blank.not_mem Text.isBlank_at, blank.not_mem Text.isBlank_close⟩

theorem scannable_of_mem_allIn {text : Text} {rule : Rule} (member : rule ∈ allIn text) :
    rule.Scannable := by
  have closed := closed_of_mem_allIn member
  obtain ⟨occurrence, wellFormed, rfl⟩ := exists_wellFormed_of_mem_allIn member
  have atAbsent : '@' ∉ occurrence.rule.selectors := fun inTrim =>
    wellFormed.at_not_mem_selectors (Text.trim_subset _ inTrim)
  exact { closed with at_not_mem_selectors := atAbsent }

/-- The occurrence in the line of a rule, with the text `lead` in front of its selectors. -/
def written (lead wrapper : Text) (rule : Rule) : Occurrence :=
  ⟨rule.media, lead ++ Selector.scopeAll wrapper rule.selectors ++ [' '],
    [' '] ++ Declaration.makeAllImportant rule.declarations ++ [' ']⟩

/-- What is read from the line of a rule that has the text `lead` in front of it. -/
def rescanned (lead wrapper : Text) (rule : Rule) : Rule :=
  (written (if rule.media = none then lead else []) wrapper rule).redivide.rule

theorem append_line_of_media_eq_none {rule : Rule} (media : rule.media = none)
    (lead wrapper : Text) : lead ++ line wrapper rule = (written lead wrapper rule).text ++ ['\n'] := by
  simp [line, body, written, Occurrence.text, media]

theorem line_of_media_ne_none {rule : Rule} (media : rule.media ≠ none) (wrapper : Text) :
    line wrapper rule = (written [' '] wrapper rule).text ++ ['\n'] := by
  obtain ⟨header, media⟩ := Option.ne_none_iff_exists'.mp media
  simp [line, body, written, Occurrence.text, media]

theorem enclosed_written {lead wrapper : Text} {rule : Rule} (scannable : rule.Scannable)
    (readable : Readable wrapper) (leadReadable : Readable lead) :
    (written lead wrapper rule).Enclosed where
  header := scannable.header
  selectors_ne_nil := by simp [written]
  at_not_mem_selectors := by
    have absent := Selector.not_mem_scopeAll (by decide) readable.at_not_mem
      scannable.at_not_mem_selectors
    simp [written, leadReadable.at_not_mem, absent]
  close_not_mem_selectors := by
    have absent := scannable.not_mem_scopeAll readable.close_not_mem
    simp [written, leadReadable.close_not_mem, absent]
  declarations_ne_nil := by simp [written]
  close_not_mem_declarations := scannable.not_mem_spaced_declarations

theorem rule_redivide_written_of_blank {lead : Text} (blank : Text.Blank lead) (wrapper : Text)
    (rule : Rule) :
    (written lead wrapper rule).redivide.rule = (written [] wrapper rule).redivide.rule := by
  cases cut : Occurrence.cutAtLastBrace? (written [] wrapper rule).declarations with
  | none =>
      have undivided := Occurrence.cutAtLastBrace?_eq_none_iff.mp cut
      rw [Occurrence.redivide_eq_self undivided,
        @Occurrence.redivide_eq_self (written lead wrapper rule) undivided]
      simp [written, Occurrence.rule, Text.trim_append_left blank]
  | some parts =>
      rw [Occurrence.redivide_eq_of_cut cut,
        @Occurrence.redivide_eq_of_cut (written lead wrapper rule) _ _ cut]
      simp [written, Occurrence.rule, Text.trim_append_left blank]

theorem rescanned_of_blank {lead : Text} (blank : Text.Blank lead) (wrapper : Text) (rule : Rule) :
    rescanned lead wrapper rule = rescanned [] wrapper rule := by
  by_cases media : rule.media = none
  · simp only [rescanned, if_pos media, rule_redivide_written_of_blank blank]
  · simp only [rescanned, if_neg media]

/-- One line is read as one rule, and the search goes on at its line break. -/
theorem allIn_append_line {lead wrapper : Text} {rule : Rule} (scannable : rule.Scannable)
    (readable : Readable wrapper) (leadReadable : Readable lead) (leadOpen : '\x7b' ∉ lead)
    (rest : Text) :
    allIn (lead ++ line wrapper rule ++ rest) =
      rescanned lead wrapper rule :: allIn (['\n'] ++ rest) := by
  by_cases media : rule.media = none
  · have wellFormed := (enclosed_written scannable readable leadReadable).wellFormed_redivide
    rw [append_line_of_media_eq_none media, List.append_assoc, ← Occurrence.text_redivide,
      allIn_text_append wellFormed, rescanned, if_pos media]
  · -- The search begins at the `@` of the header, so only the space behind it is taken in.
    have spaceReadable := readable_of_blank Text.blank_space
    have wellFormed := (enclosed_written scannable readable spaceReadable).wellFormed_redivide
    have headed : (written [' '] wrapper rule).redivide.media ≠ none := by
      rw [Occurrence.media_redivide]
      exact media
    rw [line_of_media_ne_none media, List.append_assoc, List.append_assoc,
      ← Occurrence.text_redivide,
      allIn_append_text_append wellFormed headed leadOpen leadReadable.at_not_mem, rescanned,
      if_neg media, rule_redivide_written_of_blank Text.blank_space]

/-- Each line gives one rule. The text in front of the first line goes into its selectors, unless
a media header stands between. -/
theorem allIn_append_lines_eq {lead wrapper : Text} {rules : List Rule}
    (scannable : ∀ rule ∈ rules, rule.Scannable) (readable : Readable wrapper)
    (leadReadable : Readable lead) (leadOpen : '\x7b' ∉ lead) :
    allIn (lead ++ (rules.map (line wrapper)).flatten) =
      match rules with
      | [] => []
      | first :: later => rescanned lead wrapper first :: later.map (rescanned [] wrapper) := by
  induction rules generalizing lead with
  | nil =>
      apply allIn_eq_nil_of_not_mem
      simpa using leadOpen
  | cons first later ih =>
      -- Behind the first line the search goes on at a line break, which the next line takes in.
      have rest := ih (fun rule member => scannable rule (List.mem_cons_of_mem _ member))
        (readable_of_blank Text.blank_lineBreak) (Text.blank_lineBreak.not_mem Text.isBlank_open)
      rw [List.map_cons, List.flatten_cons, ← List.append_assoc,
        allIn_append_line (scannable first List.mem_cons_self) readable leadReadable leadOpen, rest]
      cases later with
      | nil => rfl
      | cons next later => simp only [List.map_cons, rescanned_of_blank Text.blank_lineBreak]

theorem exists_rescanned_of_mem_allIn {lead wrapper : Text} {rules : List Rule}
    (scannable : ∀ rule ∈ rules, rule.Scannable) (readable : Readable wrapper)
    (leadReadable : Readable lead) (leadOpen : '\x7b' ∉ lead) {rule : Rule}
    (member : rule ∈ allIn (lead ++ (rules.map (line wrapper)).flatten)) :
    ∃ between, ∃ source ∈ rules, rescanned between wrapper source = rule := by
  rw [allIn_append_lines_eq scannable readable leadReadable leadOpen] at member
  cases rules with
  | nil => cases member
  | cons first later =>
      cases List.mem_cons.mp member with
      | inl isFirst => exact ⟨lead, first, List.mem_cons_self, isFirst.symm⟩
      | inr isLater =>
          obtain ⟨source, sourceMember, same⟩ := List.mem_map.mp isLater
          exact ⟨[], source, List.mem_cons_of_mem _ sourceMember, same⟩

theorem allIn_lines_eq {wrapper : Text} {rules : List Rule}
    (scannable : ∀ rule ∈ rules, rule.Scannable) (readable : Readable wrapper) :
    allIn (rules.map (line wrapper)).flatten = rules.map (rescanned [] wrapper) := by
  have nilReadable := readable_of_blank Text.blank_nil
  have lines := allIn_append_lines_eq scannable readable nilReadable List.not_mem_nil
  rw [List.nil_append] at lines
  rw [lines]
  cases rules with
  | nil => rfl
  | cons first later => rfl

end Rule

namespace Stylesheet

theorem allIn_scopeRules_eq {wrapper : Text} (readable : Rule.Readable wrapper) (text : Text) :
    Rule.allIn (scopeRules wrapper text) = (Rule.allIn text).map (Rule.rescanned [] wrapper) := by
  rw [scopeRules_eq]
  exact Rule.allIn_lines_eq (fun rule member => Rule.scannable_of_mem_allIn member) readable

end Stylesheet

end ScopedCss
