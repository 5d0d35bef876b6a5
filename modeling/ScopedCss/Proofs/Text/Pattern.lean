import ScopedCss.Text.Pattern

set_option autoImplicit false

/-!
# Preferred readings

What a pattern reads at the start of a text is its preferred reading. Where a repetition has to stop
at a mark that it does not accept itself, there is nothing to choose: only the longest stretch can be
followed by the mark (`flatMap_stretches`).
-/

namespace ScopedCss.Text

/-- The text before the first `mark`, if there is any, and the text after the mark. -/
def runBefore? (mark : Char) (text : Text) : Option (Text × Text) :=
  (cutAt? mark text).filter fun parts => !parts.1.isEmpty

theorem runBefore?_eq_some_iff {mark : Char} {text before after : Text} :
    runBefore? mark text = some (before, after) ↔
      text = before ++ mark :: after ∧ mark ∉ before ∧ before ≠ [] := by
  simp [runBefore?, Option.filter_eq_some_iff, cutAt?_eq_some_iff, and_assoc]

theorem runBefore?_mark_cons (mark : Char) (rest : Text) : runBefore? mark (mark :: rest) = none := by
  simp [runBefore?, cutAt?]

theorem runBefore?_cons {mark character : Char} (different : character ≠ mark) (rest : Text) :
    runBefore? mark (character :: rest) =
      (cutAt? mark rest).map fun parts => (character :: parts.1, parts.2) := by
  cases cut : cutAt? mark rest with
  | none => simp [runBefore?, cutAt?, different, cut]
  | some parts => simp [runBefore?, cutAt?, different, cut]

namespace Pattern

variable {Name : Type}

/-- The reading that a pattern takes at the start of a text. -/
def preferred? (pattern : Pattern Name) (text : Text) : Option (Reading Name) :=
  (pattern.readings text).head?

theorem Reading.empty_followedBy (text : Text) (reading : Reading Name) :
    (Reading.empty text).followedBy reading = reading := rfl

theorem preferred?_sequence (first second : Pattern Name) (text : Text) :
    (sequence first second).preferred? text =
      (first.readings text).findSome? fun reading =>
        (second.preferred? reading.rest).map reading.followedBy := by
  simp [preferred?, readings, List.head?_flatMap]

/-- An optional part is read if what follows it can be read then, and given up otherwise. -/
theorem preferred?_optional_sequence (inner later : Pattern Name) (text : Text) :
    (sequence (optional inner) later).preferred? text =
      ((sequence inner later).preferred? text).or (later.preferred? text) := by
  have given : (Reading.empty text).followedBy = (id : Reading Name → Reading Name) :=
    funext (Reading.empty_followedBy text)
  rw [preferred?_sequence, preferred?_sequence, readings, List.findSome?_append,
    List.findSome?_singleton, given, Option.map_id, id]
  rfl

theorem stretches_cons {accepts : Char → Bool} {character : Char}
    (accepted : accepts character = true) (rest : Text) :
    (stretches accepts (character :: rest) : List (Reading Name)) =
      (stretches accepts rest).map (Reading.followedBy ⟨[character], [], rest⟩) ++
        [⟨[character], [], rest⟩] := by
  rw [stretches, if_pos accepted]

theorem stretches_eq_nil {accepts : Char → Bool} {character : Char}
    (refused : accepts character = false) (rest : Text) :
    (stretches accepts (character :: rest) : List (Reading Name)) = [] := by
  simp [stretches, refused]

/-- A stretch of other characters that has to be followed by the mark goes up to the first mark. -/
theorem flatMap_stretches {Result : Type} {mark : Char} {onward : Reading Name → List Result}
    (marked : ∀ reading, reading.rest.head? ≠ some mark → onward reading = []) (text : Text) :
    (stretches (· != mark) text).flatMap onward =
      (runBefore? mark text).toList.flatMap fun parts => onward ⟨parts.1, [], mark :: parts.2⟩ := by
  induction text generalizing onward with
  | nil => rfl
  | cons character rest ih =>
      by_cases same : character = mark
      · subst same
        rw [stretches_eq_nil (by simp), runBefore?_mark_cons]
        rfl
      · have longer := @ih
          (fun reading => onward (Reading.followedBy ⟨[character], [], rest⟩ reading))
          (fun reading unmarked => marked _ unmarked)
        rw [stretches_cons (by simpa using same), List.flatMap_append, List.flatMap_map, longer,
          List.flatMap_singleton, runBefore?_cons same]
        -- The character alone is a stretch that counts only if the mark comes right behind it.
        cases rest with
        | nil =>
            have unmarked : onward ⟨[character], [], []⟩ = [] := marked _ (by simp)
            simp [runBefore?, cutAt?, unmarked]
        | cons next rest =>
            by_cases following : next = mark
            · subst following
              simp [runBefore?_mark_cons, cutAt?]
            · have unmarked : onward ⟨[character], [], next :: rest⟩ = [] :=
                marked _ (by simpa using following)
              rw [unmarked, runBefore?_cons following]
              cases cut : cutAt? mark rest with
              | none => simp [cutAt?, following, cut]
              | some parts => simp [cutAt?, following, cut, Reading.followedBy]

theorem readings_literal_cons (mark : Char) (rest : Text) :
    (literal [mark] : Pattern Name).readings (mark :: rest) = [⟨[mark], [], rest⟩] := by
  have starts : afterStart? [mark] (mark :: rest) = some rest := afterStart?_eq_some_iff.mpr rfl
  simp only [readings, starts]

theorem readings_literal_eq_nil {mark : Char} {text : Text} (unmarked : text.head? ≠ some mark) :
    (literal [mark] : Pattern Name).readings text = [] := by
  cases starts : afterStart? [mark] text with
  | none => simp only [readings, starts]
  | some rest =>
      rw [afterStart?_eq_some_iff.mp starts] at unmarked
      exact absurd rfl unmarked

theorem readings_run (mark : Char) (text : Text) :
    (sequence (oneOrMore (· != mark)) (literal [mark]) : Pattern Name).readings text =
      (runBefore? mark text).toList.map fun parts => ⟨parts.1 ++ [mark], [], parts.2⟩ := by
  rw [readings, readings, flatMap_stretches]
  · simp [readings_literal_cons, Reading.followedBy, List.map_eq_flatMap]
  · intro reading unmarked
    rw [readings_literal_eq_nil unmarked, List.map_nil]

theorem readings_captured_run (name : Name) (mark : Char) (text : Text) :
    (sequence (captured name (oneOrMore (· != mark))) (literal [mark])).readings text =
      (runBefore? mark text).toList.map fun parts =>
        ⟨parts.1 ++ [mark], [(name, parts.1)], parts.2⟩ := by
  rw [readings, readings, List.flatMap_map, readings, flatMap_stretches]
  · simp [readings_literal_cons, Reading.followedBy, Reading.capture, List.map_eq_flatMap]
  · intro reading unmarked
    have unmarkedCapture : (reading.capture name).rest.head? ≠ some mark := unmarked
    rw [readings_literal_eq_nil unmarkedCapture, List.map_nil]

end Pattern

end ScopedCss.Text
