import ScopedCss.Rule.Basic
import ScopedCss.Text.Cut

set_option autoImplicit false

/-!
# Occurrences of rules in a text

An occurrence is a stretch of text that reads as a rule: an optional media header, selectors, and
declarations between braces. Braces alone decide. Comments, quotes and nested blocks have no meaning
here, so the selectors may hold an opening brace, and so may the declarations.

`Occurrence.at?` reads an occurrence at the start of a text and `Occurrence.next?` finds the first
one in it. What is read is what stands there: `at?_eq_append` and `next?_eq_append` put the pieces
together to the text again.
-/

namespace ScopedCss

/-- A rule as it stands in a text, before anything is trimmed. -/
structure Occurrence where
  media : Option Text
  selectors : Text
  declarations : Text
  deriving DecidableEq

namespace Occurrence

/-- The stretch of text that the occurrence covers. -/
def text (occurrence : Occurrence) : Text :=
  occurrence.media.getD [] ++ occurrence.selectors ++
    '\x7b' :: (occurrence.declarations ++ ['\x7d'])

def rule (occurrence : Occurrence) : Rule :=
  ⟨occurrence.media, Text.trim occurrence.selectors, Text.trim occurrence.declarations⟩

/-- Cuts at the last opening brace that stands before every `@` and has something after it. -/
def cutAtLastBrace? : Text → Option (Text × Text)
  | [] => none
  | character :: rest =>
      if character = '@' then none
      else
        match cutAtLastBrace? rest with
        | some (before, after) => some (character :: before, after)
        | none => if character = '\x7b' ∧ rest ≠ [] then some ([], rest) else none

/-- The selectors and declarations of a rule, from the text up to its closing brace. Neither may be
empty, so an opening brace at the very start belongs to the selectors. -/
def parts? : Text → Option (Text × Text)
  | [] => none
  | character :: rest =>
      if character = '@' then none
      else (cutAtLastBrace? rest).map fun parts => (character :: parts.1, parts.2)

/-- Reads a rule without a media header at the start of a text, up to the first closing brace. -/
def bare? (text : Text) : Option (Occurrence × Text) := do
  let (content, rest) ← Text.cutAt? '\x7d' text
  let (selectors, declarations) ← parts? content
  return (⟨none, selectors, declarations⟩, rest)

def mediaKeyword : Text := "@media".toList

/-- Reads a media header at the start of a text: the keyword, a condition that is not empty, and the
first opening brace. The condition may hold anything else, closing braces included. -/
def header? (text : Text) : Option (Text × Text) := do
  let afterKeyword ← Text.afterStart? mediaKeyword text
  let (condition, rest) ← Text.cutAt? '\x7b' afterKeyword
  if condition.isEmpty then none else return (mediaKeyword ++ condition ++ ['\x7b'], rest)

/-- Reads a rule with a media header at the start of a text. -/
def headed? (text : Text) : Option (Occurrence × Text) := do
  let (header, afterHeader) ← header? text
  let (occurrence, rest) ← bare? afterHeader
  return ({ occurrence with media := some header }, rest)

/-- Reads an occurrence at the start of a text. A media header is read where it can be, and given up
where no rule follows it. -/
def at? (text : Text) : Option (Occurrence × Text) := headed? text <|> bare? text

/-- Where an occurrence was found: what was passed over before it, and what follows it. -/
structure Found where
  gap : Text
  occurrence : Occurrence
  rest : Text

/-- The first occurrence in a text, at the earliest position where one can be read. -/
def next? : Text → Option Found
  | [] => none
  | character :: rest =>
      match at? (character :: rest) with
      | some (occurrence, after) => some ⟨[], occurrence, after⟩
      | none => (next? rest).map fun found => { found with gap := character :: found.gap }

theorem cutAtLastBrace?_eq_append {text before after : Text}
    (cut : cutAtLastBrace? text = some (before, after)) : text = before ++ '\x7b' :: after := by
  induction text generalizing before with
  | nil => simp [cutAtLastBrace?] at cut
  | cons character rest ih =>
      by_cases atSign : character = '@'
      · simp [cutAtLastBrace?, atSign] at cut
      · simp only [cutAtLastBrace?, if_neg atSign] at cut
        cases later : cutAtLastBrace? rest with
        | none =>
            simp only [later, Option.ite_none_right_eq_some, Option.some.injEq,
              Prod.mk.injEq] at cut
            obtain ⟨⟨rfl, _⟩, rfl, rfl⟩ := cut
            rfl
        | some parts =>
            simp only [later, Option.some.injEq, Prod.mk.injEq] at cut
            obtain ⟨rfl, rfl⟩ := cut
            rw [ih later, List.cons_append]

theorem parts?_eq_append {text selectors declarations : Text}
    (parts : parts? text = some (selectors, declarations)) :
    text = selectors ++ '\x7b' :: declarations := by
  cases text with
  | nil => simp [parts?] at parts
  | cons character rest =>
      by_cases atSign : character = '@'
      · simp [parts?, atSign] at parts
      · simp only [parts?, if_neg atSign, Option.map_eq_some_iff, Prod.exists, Prod.mk.injEq]
          at parts
        obtain ⟨before, after, cut, rfl, rfl⟩ := parts
        rw [cutAtLastBrace?_eq_append cut, List.cons_append]

theorem bare?_eq_append {text rest : Text} {occurrence : Occurrence}
    (found : bare? text = some (occurrence, rest)) : text = occurrence.text ++ rest := by
  simp only [bare?, Option.bind_eq_bind, Option.bind_eq_some_iff, Option.pure_def,
    Option.some.injEq, Prod.exists, Prod.mk.injEq] at found
  obtain ⟨content, after, closed, selectors, declarations, parts, rfl, rfl⟩ := found
  obtain ⟨rfl, _⟩ := Text.cutAt?_eq_some_iff.mp closed
  rw [parts?_eq_append parts]
  simp [Occurrence.text]

theorem header?_eq_append {text header rest : Text}
    (found : header? text = some (header, rest)) : text = header ++ rest := by
  simp only [header?, Option.bind_eq_bind, Option.bind_eq_some_iff, Prod.exists] at found
  obtain ⟨afterKeyword, keyword, condition, after, opened, built⟩ := found
  obtain ⟨rfl, _⟩ := Text.cutAt?_eq_some_iff.mp opened
  have followed := Text.afterStart?_eq_some_iff.mp keyword
  split at built
  · simp at built
  · simp only [Option.pure_def, Option.some.injEq, Prod.mk.injEq] at built
    obtain ⟨rfl, rfl⟩ := built
    simp [followed]

theorem headed?_eq_append {text rest : Text} {occurrence : Occurrence}
    (found : headed? text = some (occurrence, rest)) : text = occurrence.text ++ rest := by
  simp only [headed?, Option.bind_eq_bind, Option.bind_eq_some_iff, Option.pure_def,
    Option.some.injEq, Prod.exists, Prod.mk.injEq] at found
  obtain ⟨header, afterHeader, headerRead, inner, after, bareRead, rfl, rfl⟩ := found
  have noMedia : inner.media = none := by
    simp only [bare?, Option.bind_eq_bind, Option.bind_eq_some_iff, Option.pure_def,
      Option.some.injEq, Prod.exists, Prod.mk.injEq] at bareRead
    obtain ⟨_, _, _, _, _, _, rfl, _⟩ := bareRead
    rfl
  rw [header?_eq_append headerRead, bare?_eq_append bareRead]
  simp [Occurrence.text, noMedia]

/-- An occurrence read at the start of a text is what the text starts with. -/
theorem at?_eq_append {text rest : Text} {occurrence : Occurrence}
    (found : at? text = some (occurrence, rest)) : text = occurrence.text ++ rest := by
  cases headed : headed? text with
  | some read =>
      simp only [at?, headed, Option.orElse_eq_orElse, Option.orElse_some, Option.some.injEq]
        at found
      subst found
      exact headed?_eq_append headed
  | none =>
      simp only [at?, headed, Option.orElse_eq_orElse, Option.orElse_none] at found
      exact bare?_eq_append found

theorem text_ne_nil (occurrence : Occurrence) : occurrence.text ≠ [] := by
  simp [Occurrence.text]

/-- The gap, the occurrence and the rest make up the text that was searched. -/
theorem next?_eq_append {text : Text} {found : Found} (search : next? text = some found) :
    text = found.gap ++ found.occurrence.text ++ found.rest := by
  induction text generalizing found with
  | nil => simp [next?] at search
  | cons character rest ih =>
      simp only [next?] at search
      cases here : at? (character :: rest) with
      | some read =>
          simp only [here, Option.some.injEq] at search
          subst search
          simpa using at?_eq_append here
      | none =>
          simp only [here, Option.map_eq_some_iff] at search
          obtain ⟨later, searched, rfl⟩ := search
          conv => lhs; rw [ih searched]
          simp

theorem next?_rest_length_lt {text : Text} {found : Found} (search : next? text = some found) :
    found.rest.length < text.length := by
  have covered := congrArg List.length (next?_eq_append search)
  have nonempty := List.length_pos_iff.mpr (text_ne_nil found.occurrence)
  simp only [List.length_append] at covered
  omega

end Occurrence

end ScopedCss
