import ScopedCss.Proofs.Rule.Search

set_option autoImplicit false

/-!
# Braces in declarations

A rule is divided at the last brace that can divide it, so the declarations of a rule hold no other
opening brace than those behind an `@` and possibly one at their very end, which could divide
nothing since the closing brace follows it (`WellFormed.brace_place`).
-/

namespace ScopedCss

namespace Occurrence

/-- An opening brace without an `@` before it ends the declarations. What follows it in the text is
no white space but the closing brace of the rule. -/
theorem WellFormed.brace_place {occurrence : Occurrence} (wellFormed : occurrence.WellFormed)
    {before after : Text} (brace : occurrence.rule.declarations = before ++ '\x7b' :: after)
    (atAbsent : '@' ∉ before) :
    after = [] ∧ ∃ front, occurrence.text = front ++ before ++ ['\x7b', '\x7d'] := by
  obtain ⟨lead, tail, leadBlank, tailBlank, parts⟩ :=
    Text.exists_blank_trim_blank occurrence.declarations
  have untrimmed : occurrence.declarations = (lead ++ before) ++ '\x7b' :: (after ++ tail) := by
    rw [parts, show Text.trim occurrence.declarations = before ++ '\x7b' :: after from brace]
    simp
  have atAbsentUntrimmed : '@' ∉ lead ++ before :=
    List.not_mem_append (leadBlank.not_mem Text.isBlank_at) atAbsent
  -- With anything behind it, white space included, the brace would have divided the rule.
  have nothingBehind : after ++ tail = [] := by
    by_contra nonempty
    exact atAbsentUntrimmed (wellFormed.undivided _ _ untrimmed nonempty)
  refine ⟨(List.append_eq_nil_iff.mp nothingBehind).1,
    occurrence.media.getD [] ++ occurrence.selectors ++ '\x7b' :: lead, ?_⟩
  rw [nothingBehind] at untrimmed
  simp [text, untrimmed]

end Occurrence

namespace Segmentation

theorem eq_append_of_segments {text gap : Text} {occurrence : Occurrence}
    {earlier later : List (Text × Occurrence)}
    (segments : (of text).segments = earlier ++ (gap, occurrence) :: later) :
    text = Segmentation.text ⟨earlier, gap⟩ ++ occurrence.text ++
      Segmentation.text ⟨later, (of text).leftover⟩ := by
  calc
    text = (of text).text := (text_of text).symm
    _ = _ := by simp [Segmentation.text, segments]

/-- An opening brace in the declarations of a rule has an `@` before it there, or it is their last
character. In the second case there is no `@` in the declarations, and in the text the brace stands
right before the closing brace of the rule. -/
theorem braces_of_declarations (text : Text) :
    Rule.allIn text = (of text).segments.map (fun segment =>
      ⟨segment.2.media, Text.trim segment.2.selectors, Text.trim segment.2.declarations⟩) ∧
    ∀ earlier gap occurrence later, (of text).segments = earlier ++ (gap, occurrence) :: later →
      let declarations := Text.trim occurrence.declarations
      text = Segmentation.text ⟨earlier, gap⟩ ++ occurrence.text ++
        Segmentation.text ⟨later, (of text).leftover⟩ ∧
      ∀ before after, declarations = before ++ '\x7b' :: after →
        '@' ∈ before ∨
          after = [] ∧ '@' ∉ declarations ∧
            ∃ front, occurrence.text = front ++ before ++ ['\x7b', '\x7d'] := by
  refine ⟨rfl, ?_⟩
  intro earlier gap occurrence later segments declarations
  refine ⟨eq_append_of_segments segments, ?_⟩
  intro before after brace
  by_cases atMember : '@' ∈ before
  · exact .inl atMember
  · have wellFormed : occurrence.WellFormed :=
      wellFormed_of_mem_segments (segments ▸ List.mem_append_right earlier List.mem_cons_self)
    obtain ⟨ends, place⟩ := wellFormed.brace_place brace atMember
    refine .inr ⟨ends, ?_, place⟩
    rw [brace, ends]
    simp [atMember]

theorem braces_of_declarations_last :
    let text := "p\x7ba @\x7b\x7d @media x\x7bq\x7b b;\x7b\x7d".toList
    let first : Occurrence := ⟨none, ['p'], "a @\x7b".toList⟩
    let last : Occurrence := ⟨some "@media x\x7b".toList, ['q'], " b;\x7b".toList⟩
    (of text).segments = [([], first)] ++ ([' '], last) :: [] ∧
      Text.trim last.declarations = "b;".toList ++ '\x7b' :: [] ∧
      ∃ front, last.text = front ++ "b;".toList ++ ['\x7b', '\x7d'] := by
  intro text first last
  have segments : (of text).segments = [([], first)] ++ ([' '], last) :: [] := by decide +kernel
  have brace : Text.trim last.declarations = "b;".toList ++ '\x7b' :: [] := by decide
  have place := ((braces_of_declarations text).2 _ _ _ _ segments).2 _ _ brace
  have atAbsent : '@' ∉ "b;".toList := by decide
  exact ⟨segments, brace, (place.resolve_left atAbsent).2.2⟩

end Segmentation

end ScopedCss
