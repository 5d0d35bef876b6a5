import ScopedCss.Proofs.Rule.Occurrence
import ScopedCss.Proofs.Text.Trim
import ScopedCss.Rule.Segmentation

set_option autoImplicit false

/-!
# Finding the rules of a text

An occurrence at the start of a text is the first rule of it (`allIn_text_append`), and a gap in
which no occurrence starts is passed over (`allIn_append_of_at?_eq_none`). Together these read a
text from left to right, one occurrence or gap at a time.
-/

namespace ScopedCss

namespace Occurrence

theorem next?_eq_some_of_wellFormed {occurrence : Occurrence} (wellFormed : occurrence.WellFormed)
    (rest : Text) : next? (occurrence.text ++ rest) = some ⟨[], occurrence, rest⟩ := by
  have read := at?_eq_some_iff.mpr ⟨wellFormed, Eq.refl (occurrence.text ++ rest)⟩
  cases split : occurrence.text ++ rest with
  | nil => exact absurd (List.append_eq_nil_iff.mp split).1 occurrence.text_ne_nil
  | cons first later =>
      rw [split] at read
      simp only [next?, read]

theorem next?_cons_of_at?_eq_none {character : Char} {rest : Text}
    (nothing : at? (character :: rest) = none) :
    next? (character :: rest) =
      (next? rest).map fun found => { found with gap := character :: found.gap } := by
  simp only [next?, nothing]

theorem wellFormed_of_next?_eq_some {text : Text} {found : Found}
    (search : next? text = some found) : found.occurrence.WellFormed := by
  induction text generalizing found with
  | nil => simp [next?] at search
  | cons character rest ih =>
      cases here : at? (character :: rest) with
      | some read =>
          simp only [next?, here, Option.some.injEq] at search
          subst search
          exact (at?_eq_some_iff.mp here).1
      | none =>
          rw [next?_cons_of_at?_eq_none here, Option.map_eq_some_iff] at search
          obtain ⟨later, searched, rfl⟩ := search
          have wellFormed := ih searched
          exact wellFormed

theorem next?_eq_none_of_not_mem {text : Text} (absent : '\x7b' ∉ text) : next? text = none := by
  rw [Option.eq_none_iff_forall_ne_some]
  intro found search
  apply absent
  rw [next?_eq_append search]
  simp [Occurrence.text]

end Occurrence

theorem Segmentation.wellFormed_of_mem_segments {text gap : Text} {occurrence : Occurrence}
    (member : (gap, occurrence) ∈ (of text).segments) : occurrence.WellFormed := by
  induction text using of.induct with
  | case1 text search =>
      rw [of_eq_of_next?_eq_none search] at member
      cases member
  | case2 text found search ih =>
      rw [of_eq_of_next?_eq_some search] at member
      cases member with
      | head => exact Occurrence.wellFormed_of_next?_eq_some search
      | tail _ later => exact ih later

namespace Rule

open Occurrence

theorem allIn_of_next?_eq_none {text : Text} (search : next? text = none) : allIn text = [] := by
  rw [allIn, Segmentation.of_eq_of_next?_eq_none search]
  rfl

theorem allIn_of_next?_eq_some {text : Text} {found : Found} (search : next? text = some found) :
    allIn text = found.occurrence.rule :: allIn found.rest := by
  rw [allIn, Segmentation.of_eq_of_next?_eq_some search]
  rfl

theorem allIn_eq_nil_of_not_mem {text : Text} (absent : '\x7b' ∉ text) : allIn text = [] :=
  allIn_of_next?_eq_none (next?_eq_none_of_not_mem absent)

theorem allIn_text_append {occurrence : Occurrence} (wellFormed : occurrence.WellFormed)
    (rest : Text) : allIn (occurrence.text ++ rest) = occurrence.rule :: allIn rest :=
  allIn_of_next?_eq_some (next?_eq_some_of_wellFormed wellFormed rest)

theorem allIn_cons_of_at?_eq_none {character : Char} {rest : Text}
    (nothing : at? (character :: rest) = none) : allIn (character :: rest) = allIn rest := by
  have step := next?_cons_of_at?_eq_none nothing
  cases search : next? rest with
  | none =>
      rw [search, Option.map_none] at step
      rw [allIn_of_next?_eq_none step, allIn_of_next?_eq_none search]
  | some found =>
      rw [search, Option.map_some] at step
      rw [allIn_of_next?_eq_some step, allIn_of_next?_eq_some search]

theorem allIn_append_of_at?_eq_none {gap text : Text}
    (nothing : ∀ before after, gap = before ++ after → after ≠ [] → at? (after ++ text) = none) :
    allIn (gap ++ text) = allIn text := by
  induction gap with
  | nil => rfl
  | cons character gap ih =>
      have here : at? (character :: (gap ++ text)) = none :=
        nothing [] (character :: gap) rfl (by simp)
      rw [List.cons_append, allIn_cons_of_at?_eq_none here]
      apply ih
      intro before after split nonempty
      exact nothing (character :: before) after (by rw [split]; rfl) nonempty

theorem allIn_append_cons_of_stop {lead after : Text} {stop : Char} (braceAbsent : '\x7b' ∉ lead)
    (atAbsent : '@' ∉ lead) (isStop : stop = '@' ∨ stop = '\x7d') :
    allIn (lead ++ stop :: after) = allIn (stop :: after) := by
  apply allIn_append_of_at?_eq_none
  intro before between split nonempty
  subst split
  apply at?_eq_none_of_stop
  · exact fun member => braceAbsent (List.mem_append_right _ member)
  · exact fun member => atAbsent (List.mem_append_right _ member)
  · exact isStop.imp_left fun atSign => ⟨atSign, nonempty⟩

theorem allIn_close_cons (after : Text) : allIn ('\x7d' :: after) = allIn after :=
  allIn_cons_of_at?_eq_none
    (at?_eq_none_of_stop List.not_mem_nil List.not_mem_nil (.inr rfl))

theorem allIn_blank_append_cons_of_stop {blank after : Text} {stop : Char}
    (isBlank : Text.Blank blank) (isStop : stop = '@' ∨ stop = '\x7d') :
    allIn (blank ++ stop :: after) = allIn (stop :: after) :=
  allIn_append_cons_of_stop (isBlank.not_mem Text.isBlank_open) (isBlank.not_mem Text.isBlank_at)
    isStop

theorem allIn_blank_append_close {blank : Text} (isBlank : Text.Blank blank) (after : Text) :
    allIn (blank ++ '\x7d' :: after) = allIn after := by
  rw [allIn_blank_append_cons_of_stop isBlank (.inr rfl), allIn_close_cons]

/-- A media header is found behind text that holds neither an opening brace nor an `@`. -/
theorem allIn_append_text_append {occurrence : Occurrence} (wellFormed : occurrence.WellFormed)
    (media : occurrence.media ≠ none) {gap : Text} (braceAbsent : '\x7b' ∉ gap)
    (atAbsent : '@' ∉ gap) (rest : Text) :
    allIn (gap ++ (occurrence.text ++ rest)) = occurrence.rule :: allIn rest := by
  have starts := wellFormed.head?_text_eq_at_iff.mpr media
  obtain ⟨later, split⟩ := List.head?_eq_some_iff.mp starts
  have skipped : allIn (gap ++ (occurrence.text ++ rest)) = allIn (occurrence.text ++ rest) := by
    rw [split, List.cons_append]
    exact allIn_append_cons_of_stop braceAbsent atAbsent (.inl rfl)
  rw [skipped, allIn_text_append wellFormed]

theorem exists_wellFormed_of_mem_allIn {text : Text} {rule : Rule} (member : rule ∈ allIn text) :
    ∃ occurrence : Occurrence, occurrence.WellFormed ∧ occurrence.rule = rule := by
  obtain ⟨⟨gap, occurrence⟩, segmentMember, same⟩ := List.mem_map.mp member
  exact ⟨occurrence, Segmentation.wellFormed_of_mem_segments segmentMember, same⟩

end Rule

end ScopedCss
