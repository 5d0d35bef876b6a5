import ScopedCss.Proofs.Rule.Traversal

set_option autoImplicit false

/-!
# Text behind a stylesheet

What a search finds in a text it also finds when more text follows (`next?_append`): a position in
front of the rule that was found has the first closing brace behind its first opening brace before
the end of the text already, and nothing behind that brace counts. So the rules of two texts put
together are those of the first and those of its leftover with the second behind it.
-/

namespace ScopedCss

namespace Occurrence

theorem exists_braces_of_sublist {text : Text} (braces : ['\x7b', '\x7d'].Sublist text) :
    ∃ before inner rest, text = before ++ '\x7b' :: (inner ++ '\x7d' :: rest) ∧
      '\x7b' ∉ before ∧ '\x7d' ∉ inner := by
  obtain ⟨first, second, rfl, openMember, closeSublist⟩ := List.cons_sublist_iff.mp braces
  have closeMember : '\x7d' ∈ second := List.singleton_sublist.mp closeSublist
  obtain ⟨before, after, rfl, openAbsent⟩ := List.eq_append_cons_of_mem openMember
  have closeBehind : '\x7d' ∈ after ++ second := List.mem_append_right _ closeMember
  obtain ⟨inner, rest, split, closeAbsent⟩ := List.eq_append_cons_of_mem closeBehind
  exact ⟨before, inner, rest, by simp [split], openAbsent, closeAbsent⟩

theorem braces_sublist_text (occurrence : Occurrence) :
    ['\x7b', '\x7d'].Sublist occurrence.text := by
  have closed : ['\x7d'].Sublist (occurrence.declarations ++ ['\x7d']) :=
    List.sublist_append_right _ _
  exact (closed.cons_cons '\x7b').trans (List.sublist_append_right _ _)

theorem at?_append_eq_none {text : Text} (braces : ['\x7b', '\x7d'].Sublist text)
    (nothing : at? text = none) (later : Text) : at? (text ++ later) = none := by
  obtain ⟨before, inner, rest, split, openAbsent, closeAbsent⟩ := exists_braces_of_sublist braces
  rw [Option.eq_none_iff_forall_ne_some]
  intro found read
  obtain ⟨occurrence, otherRest⟩ := found
  obtain ⟨wellFormed, occurrenceSplit⟩ := at?_eq_some_iff.mp read
  have ends : otherRest = rest ++ later := by
    apply wellFormed.rest_eq _ openAbsent closeAbsent
    rw [← occurrenceSplit, split]
    simp
  -- The occurrence ends within the text, so it can be read there without what follows.
  rw [ends, ← List.append_assoc] at occurrenceSplit
  have within := at?_eq_some_iff.mpr ⟨wellFormed, List.append_cancel_right occurrenceSplit⟩
  rw [nothing] at within
  cases within

theorem next?_append {text : Text} {found : Found} (search : next? text = some found)
    (later : Text) : next? (text ++ later) = some { found with rest := found.rest ++ later } := by
  induction text generalizing found with
  | nil => simp [next?] at search
  | cons character text ih =>
      cases here : at? (character :: text) with
      | some read =>
          obtain ⟨wellFormed, split⟩ := at?_eq_some_iff.mp here
          simp only [next?, here, Option.some.injEq] at search
          subst search
          rw [split, List.append_assoc]
          exact next?_eq_some_of_wellFormed wellFormed _
      | none =>
          rw [next?_cons_of_at?_eq_none here, Option.map_eq_some_iff] at search
          obtain ⟨inText, searched, rfl⟩ := search
          have braces : ['\x7b', '\x7d'].Sublist (character :: text) := by
            rw [next?_eq_append searched, List.append_assoc]
            have covered : inText.occurrence.text.Sublist
                (inText.gap ++ (inText.occurrence.text ++ inText.rest)) :=
              (List.sublist_append_left _ _).trans (List.sublist_append_right _ _)
            exact ((braces_sublist_text inText.occurrence).trans covered).cons character
          have stillNothing := at?_append_eq_none braces here later
          rw [List.cons_append] at stillNothing ⊢
          rw [next?_cons_of_at?_eq_none stillNothing, ih searched]
          rfl

end Occurrence

namespace Rule

open Occurrence

theorem allIn_append_eq (text later : Text) :
    allIn (text ++ later) = allIn text ++ allIn ((Segmentation.of text).leftover ++ later) := by
  induction text using Segmentation.of.induct with
  | case1 text search =>
      rw [allIn_of_next?_eq_none search, Segmentation.of_eq_of_next?_eq_none search,
        List.nil_append]
  | case2 text found search ih =>
      rw [allIn_of_next?_eq_some (next?_append search later), allIn_of_next?_eq_some search,
        Segmentation.of_eq_of_next?_eq_some search, ih, List.cons_append]

end Rule

namespace Stylesheet

theorem scopeRules_append_eq (wrapper text later : Text) :
    scopeRules wrapper (text ++ later) =
      scopeRules wrapper text ++
        scopeRules wrapper ((Segmentation.of text).leftover ++ later) := by
  rw [scopeRules_eq, Rule.allIn_append_eq, List.map_append, List.flatten_append, ← scopeRules_eq,
    ← scopeRules_eq]

/-- Two texts put together have the rules of the first, and then those of what the first leaves over
with the second behind it. So text put behind a stylesheet changes none of the rules that were found
in it already, and none of the lines written for them. -/
theorem allIn_append (text later : Text) :
    Rule.allIn (text ++ later) =
        Rule.allIn text ++ Rule.allIn ((Segmentation.of text).leftover ++ later) ∧
      Rule.allIn text <+: Rule.allIn (text ++ later) ∧
      ∀ wrapper, scopeRules wrapper text <+: scopeRules wrapper (text ++ later) := by
  refine ⟨Rule.allIn_append_eq text later, ?_, ?_⟩
  · rw [Rule.allIn_append_eq]
    exact List.prefix_append _ _
  · intro wrapper
    rw [scopeRules_append_eq]
    exact List.prefix_append _ _

end Stylesheet

end ScopedCss
