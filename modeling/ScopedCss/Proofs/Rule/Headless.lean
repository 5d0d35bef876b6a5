import ScopedCss.Proofs.Rule.Search

set_option autoImplicit false

/-!
# Headers that are given up

A scan passes over braces with nothing between them. Where nothing can be read behind a media header
up to the first closing brace, the header is given up, and what is read up to that brace has no
header.
-/

namespace ScopedCss

namespace Occurrence

variable {before tail content : Text}

theorem eq_nil_of_append_singleton {mark : Char} {first later : Text} (absent : mark ∉ before)
    (same : before ++ [mark] = first ++ mark :: later) : later = [] := by
  rcases List.eq_nil_or_concat later with empty | ⟨front, last, rfl⟩
  · exact empty
  · rw [List.concat_eq_append, ← List.cons_append, ← List.append_assoc] at same
    obtain ⟨rfl, _⟩ := List.append_inj' same rfl
    exact absurd (by simp) absent

theorem parts?_append_open (openAbsent : '\x7b' ∉ before) : parts? (before ++ ['\x7b']) = none := by
  rw [Option.eq_none_iff_forall_ne_some]
  intro parts divided
  rcases parts with ⟨selectors, declarations⟩
  obtain ⟨split, _, _, nonempty, _⟩ := parts?_eq_some_iff.mp divided
  exact nonempty (eq_nil_of_append_singleton openAbsent split)

theorem parts?_of_not_mem (openAbsent : '\x7b' ∉ content) : parts? content = none := by
  rw [Option.eq_none_iff_forall_ne_some]
  intro parts divided
  rcases parts with ⟨selectors, declarations⟩
  obtain ⟨rfl, _⟩ := parts?_eq_some_iff.mp divided
  exact openAbsent (by simp)

theorem at?_of_headed?_eq_none {text : Text} (headless : headed? text = none) :
    at? text = bare? text := by
  simp [at?, headless]

theorem bare?_append_close (closeAbsent : '\x7d' ∉ content) (rest : Text) :
    bare? (content ++ '\x7d' :: rest) =
      (parts? content).map fun parts => (⟨none, parts.1, parts.2⟩, rest) := by
  have closed := Text.cutAt?_eq_some_iff.mpr ⟨Eq.refl (content ++ '\x7d' :: rest), closeAbsent⟩
  simp only [bare?, closed, Option.bind_eq_bind, Option.bind_some]
  cases parts? content with
  | none => rfl
  | some parts => rfl

/-- Text before a closing brace in which no media header can be read that has a rule behind it,
whatever follows the brace. -/
def Headless (content : Text) : Prop :=
  ∀ before after, content = before ++ after → ∀ rest, headed? (after ++ '\x7d' :: rest) = none

theorem headed?_eq_none_of_head?_ne {text : Text} (start : text.head? ≠ some '@') :
    headed? text = none := by
  rw [Option.eq_none_iff_forall_ne_some]
  intro read headed
  rcases read with ⟨occurrence, rest⟩
  obtain ⟨hasMedia, wellFormed, rfl⟩ := headed?_eq_some_iff.mp headed
  rw [List.head?_append_of_ne_nil _ occurrence.text_ne_nil] at start
  exact start (wellFormed.head?_text_eq_at_iff.mpr hasMedia)

theorem headed?_append_open (openAbsent : '\x7b' ∉ before) (closeAbsent : '\x7d' ∉ tail)
    (undivided : parts? tail = none) (rest : Text) :
    headed? (before ++ '\x7b' :: (tail ++ '\x7d' :: rest)) = none := by
  cases headerRead : header? (before ++ '\x7b' :: (tail ++ '\x7d' :: rest)) with
  | none => simp [headed?, headerRead]
  | some read =>
      obtain ⟨header, after⟩ := read
      obtain ⟨⟨condition, _, absent, rfl⟩, split⟩ := header?_eq_some_iff.mp headerRead
      rw [List.append_assoc, List.singleton_append] at split
      obtain ⟨_, rfl⟩ :=
        Text.append_cons_inj split openAbsent (List.not_mem_append (by decide) absent)
      simp [headed?, headerRead, bare?_append_close closeAbsent, undivided]

/-- A media header before text in which nothing can be read is given up, and so is any that stands
in its condition. -/
theorem headless_append_open (openAbsent : '\x7b' ∉ before) (closeAbsent : '\x7d' ∉ tail)
    (atAbsent : '@' ∉ tail) (undivided : parts? tail = none) :
    Headless (before ++ '\x7b' :: tail) := by
  intro passed after split rest
  rcases List.append_eq_append_iff.mp split with ⟨middle, _, joined⟩ | ⟨middle, rfl, rfl⟩
  · cases middle with
    | nil =>
        obtain rfl : '\x7b' :: tail = after := joined
        exact headed?_append_open List.not_mem_nil closeAbsent undivided rest
    | cons first middle =>
        obtain ⟨_, rfl⟩ := List.cons.inj joined
        apply headed?_eq_none_of_head?_ne
        cases after with
        | nil => simp
        | cons head after =>
            rintro ⟨⟩
            simp at atAbsent
  · rw [List.append_assoc, List.cons_append]
    exact headed?_append_open (fun member => openAbsent (List.mem_append_right _ member))
      closeAbsent undivided rest

/-- No rule starts before braces that have nothing between them. -/
theorem at?_append_braces (openAbsent : '\x7b' ∉ before) (closeAbsent : '\x7d' ∉ before)
    (rest : Text) : at? (before ++ '\x7b' :: '\x7d' :: rest) = none := by
  have headless := headed?_append_open openAbsent List.not_mem_nil rfl rest
  rw [List.nil_append] at headless
  rw [at?_of_headed?_eq_none headless, List.append_cons before,
    bare?_append_close (by simp [closeAbsent]), parts?_append_open openAbsent]
  rfl

end Occurrence

namespace Rule

open Occurrence

variable {before content : Text}

theorem allIn_append_braces (openAbsent : '\x7b' ∉ before) (closeAbsent : '\x7d' ∉ before)
    (rest : Text) : allIn (before ++ '\x7b' :: '\x7d' :: rest) = allIn rest := by
  induction before with
  | nil =>
      have nothing := at?_append_braces openAbsent closeAbsent rest
      rw [List.nil_append] at nothing ⊢
      rw [allIn_cons_of_at?_eq_none nothing, allIn_close_cons]
  | cons character before ih =>
      have nothing := at?_append_braces openAbsent closeAbsent rest
      rw [List.cons_append] at nothing ⊢
      rw [allIn_cons_of_at?_eq_none nothing]
      exact ih (List.not_mem_of_not_mem_cons openAbsent) (List.not_mem_of_not_mem_cons closeAbsent)

/-- Up to the closing brace at most one rule is read, and the text behind the brace has no say in
which. -/
theorem exists_allIn_append_close (headless : Headless content) (closeAbsent : '\x7d' ∉ content) :
    ∃ found : List Rule, (∀ rule ∈ found, rule.media = none) ∧
      ∀ rest, allIn (content ++ '\x7d' :: rest) = found ++ allIn rest := by
  induction content with
  | nil => exact ⟨[], by simp, allIn_close_cons⟩
  | cons character content ih =>
      have read (rest : Text) :
          at? (character :: (content ++ '\x7d' :: rest)) =
            (parts? (character :: content)).map fun parts => (⟨none, parts.1, parts.2⟩, rest) :=
        (at?_of_headed?_eq_none (headless [] (character :: content) rfl rest)).trans
          (bare?_append_close closeAbsent rest)
      cases divided : parts? (character :: content) with
      | none =>
          simp only [divided, Option.map_none] at read
          have headlessLater : Headless content := by
            intro passed after split
            exact headless (character :: passed) after (by rw [split]; rfl)
          obtain ⟨found, noMedia, later⟩ :=
            ih headlessLater (List.not_mem_of_not_mem_cons closeAbsent)
          refine ⟨found, noMedia, ?_⟩
          intro rest
          rw [List.cons_append, allIn_cons_of_at?_eq_none (read rest), later]
      | some parts =>
          simp only [divided, Option.map_some] at read
          refine ⟨[Occurrence.rule ⟨none, parts.1, parts.2⟩], by simp [Occurrence.rule], ?_⟩
          intro rest
          obtain ⟨wellFormed, split⟩ := at?_eq_some_iff.mp (read rest)
          rw [List.cons_append, split, allIn_text_append wellFormed]
          rfl

end Rule

end ScopedCss
