import Mathlib.Data.List.Basic
import ScopedCss.Proofs.Text.Cut
import ScopedCss.Rule.Occurrence

set_option autoImplicit false

/-!
# Which stretches of text read as rules

A stretch of text is read as a rule exactly where a well-formed occurrence stands, and what is read
is that occurrence (`at?_eq_some_iff`). So at most one occurrence can be read at a position, and the
braces alone tell where it ends (`exists_braces`).
-/

namespace ScopedCss.Occurrence

/-- No opening brace divides the text: each that has something after it has an `@` before it. -/
def Undivided (text : Text) : Prop :=
  ∀ before after, text = before ++ '\x7b' :: after → after ≠ [] → '@' ∈ before

/-- The keyword, a condition that is not empty, and the brace that opens the block. -/
def IsHeader (header : Text) : Prop :=
  ∃ condition : Text, condition ≠ [] ∧ '\x7b' ∉ condition ∧
    header = mediaKeyword ++ condition ++ ['\x7b']

/-- The occurrences that can be read from a text. -/
structure WellFormed (occurrence : Occurrence) : Prop where
  header : ∀ header ∈ occurrence.media, IsHeader header
  selectors_ne_nil : occurrence.selectors ≠ []
  at_not_mem_selectors : '@' ∉ occurrence.selectors
  close_not_mem_selectors : '\x7d' ∉ occurrence.selectors
  declarations_ne_nil : occurrence.declarations ≠ []
  close_not_mem_declarations : '\x7d' ∉ occurrence.declarations
  undivided : Undivided occurrence.declarations

theorem undivided_nil : Undivided [] := by
  intro before after split
  simp at split

theorem undivided_cons_iff {character : Char} {rest : Text} :
    Undivided (character :: rest) ↔
      character = '@' ∨ Undivided rest ∧ (character = '\x7b' → rest = []) := by
  constructor
  · intro undivided
    by_cases atSign : character = '@'
    · exact .inl atSign
    · refine .inr ⟨?_, ?_⟩
      · intro before after split nonempty
        have guarded := undivided (character :: before) after (by rw [split]; rfl) nonempty
        cases List.mem_cons.mp guarded with
        | inl same => exact absurd same.symm atSign
        | inr inBefore => exact inBefore
      · intro brace
        subst brace
        by_contra nonempty
        exact absurd (undivided [] rest rfl nonempty) List.not_mem_nil
  · intro step before after split nonempty
    cases before with
    | nil =>
        obtain ⟨rfl, rfl⟩ := List.cons.inj split
        cases step with
        | inl atSign => exact absurd atSign (by decide)
        | inr last => exact absurd (last.2 rfl) nonempty
    | cons first before =>
        obtain ⟨rfl, later⟩ := List.cons.inj split
        cases step with
        | inl atSign => exact atSign ▸ List.mem_cons_self
        | inr undivided =>
            exact List.mem_cons_of_mem _ (undivided.1 before after later nonempty)

theorem undivided_of_not_mem {text : Text} (absent : '\x7b' ∉ text) : Undivided text := by
  intro before after split _
  rw [split] at absent
  exact absurd (by simp) absent

theorem cutAtLastBrace?_eq_none_iff {text : Text} :
    cutAtLastBrace? text = none ↔ Undivided text := by
  induction text with
  | nil => simp [cutAtLastBrace?, undivided_nil]
  | cons character rest ih =>
      rw [undivided_cons_iff, ← ih, cutAtLastBrace?]
      by_cases atSign : character = '@'
      · simp [atSign]
      · rw [if_neg atSign]
        cases later : cutAtLastBrace? rest with
        | none => simp [atSign]
        | some parts => simp [atSign]

theorem cutAtLastBrace?_eq_some_iff {text before after : Text} :
    cutAtLastBrace? text = some (before, after) ↔
      text = before ++ '\x7b' :: after ∧ '@' ∉ before ∧ after ≠ [] ∧ Undivided after := by
  constructor
  · intro cut
    refine ⟨cutAtLastBrace?_eq_append cut, ?_⟩
    induction text generalizing before with
    | nil => simp [cutAtLastBrace?] at cut
    | cons character rest ih =>
        by_cases atSign : character = '@'
        · simp [cutAtLastBrace?, atSign] at cut
        · simp only [cutAtLastBrace?, if_neg atSign] at cut
          cases later : cutAtLastBrace? rest with
          | none =>
              simp only [later, Option.ite_none_right_eq_some, Option.some.injEq,
                Prod.mk.injEq] at cut
              obtain ⟨⟨rfl, nonempty⟩, rfl, rfl⟩ := cut
              exact ⟨List.not_mem_nil, nonempty, cutAtLastBrace?_eq_none_iff.mp later⟩
          | some parts =>
              simp only [later, Option.some.injEq, Prod.mk.injEq] at cut
              obtain ⟨rfl, rfl⟩ := cut
              obtain ⟨absent, nonempty, undivided⟩ := ih later
              refine ⟨?_, nonempty, undivided⟩
              simp [absent, Ne.symm atSign]
  · intro cut
    obtain ⟨rfl, absent, nonempty, undivided⟩ := cut
    induction before with
    | nil => simp [cutAtLastBrace?, cutAtLastBrace?_eq_none_iff.mpr undivided, nonempty]
    | cons character before ih =>
        rw [List.mem_cons, not_or] at absent
        simp [cutAtLastBrace?, Ne.symm absent.1, ih absent.2]

theorem parts?_eq_some_iff {text selectors declarations : Text} :
    parts? text = some (selectors, declarations) ↔
      text = selectors ++ '\x7b' :: declarations ∧ selectors ≠ [] ∧ '@' ∉ selectors ∧
        declarations ≠ [] ∧ Undivided declarations := by
  cases text with
  | nil => simp [parts?]
  | cons character rest =>
      constructor
      · intro parts
        by_cases atSign : character = '@'
        · simp [parts?, atSign] at parts
        · simp only [parts?, if_neg atSign, Option.map_eq_some_iff, Prod.exists, Prod.mk.injEq]
            at parts
          obtain ⟨before, after, cut, rfl, rfl⟩ := parts
          obtain ⟨rfl, absent, nonempty, undivided⟩ := cutAtLastBrace?_eq_some_iff.mp cut
          exact ⟨rfl, by simp, by simp [absent, Ne.symm atSign], nonempty, undivided⟩
      · intro parts
        obtain ⟨split, selectorsNonempty, absent, nonempty, undivided⟩ := parts
        cases selectors with
        | nil => exact absurd rfl selectorsNonempty
        | cons first before =>
            obtain ⟨rfl, rfl⟩ := List.cons.inj split
            rw [List.mem_cons, not_or] at absent
            have cut := cutAtLastBrace?_eq_some_iff.mpr ⟨rfl, absent.2, nonempty, undivided⟩
            simp [parts?, Ne.symm absent.1, cut]

theorem bare?_eq_some_iff {text rest : Text} {occurrence : Occurrence} :
    bare? text = some (occurrence, rest) ↔
      occurrence.media = none ∧ occurrence.WellFormed ∧ text = occurrence.text ++ rest := by
  constructor
  · intro found
    have split := bare?_eq_append found
    simp only [bare?, Option.bind_eq_bind, Option.bind_eq_some_iff, Option.pure_def,
      Option.some.injEq, Prod.exists, Prod.mk.injEq] at found
    obtain ⟨content, after, closed, selectors, declarations, parts, rfl, rfl⟩ := found
    obtain ⟨_, closeAbsent⟩ := Text.cutAt?_eq_some_iff.mp closed
    obtain ⟨rfl, selectorsNonempty, atAbsent, nonempty, undivided⟩ := parts?_eq_some_iff.mp parts
    rw [List.mem_append, not_or, List.mem_cons, not_or] at closeAbsent
    obtain ⟨closeAbsentSelectors, _, closeAbsentDeclarations⟩ := closeAbsent
    exact ⟨rfl, ⟨by simp, selectorsNonempty, atAbsent, closeAbsentSelectors, nonempty,
      closeAbsentDeclarations, undivided⟩, split⟩
  · intro stands
    obtain ⟨noMedia, wellFormed, rfl⟩ := stands
    obtain ⟨media, selectors, declarations⟩ := occurrence
    cases noMedia
    have closed : Text.cutAt? '\x7d'
        ((⟨none, selectors, declarations⟩ : Occurrence).text ++ rest) =
          some (selectors ++ '\x7b' :: declarations, rest) := by
      rw [Text.cutAt?_eq_some_iff]
      refine ⟨by simp [text], ?_⟩
      simp [wellFormed.close_not_mem_selectors, wellFormed.close_not_mem_declarations]
    have parts := parts?_eq_some_iff.mpr ⟨rfl, wellFormed.selectors_ne_nil,
      wellFormed.at_not_mem_selectors, wellFormed.declarations_ne_nil, wellFormed.undivided⟩
    simp [bare?, closed, parts]

theorem header?_eq_some_iff {text header rest : Text} :
    header? text = some (header, rest) ↔ IsHeader header ∧ text = header ++ rest := by
  constructor
  · intro found
    refine ⟨?_, header?_eq_append found⟩
    simp only [header?, Option.bind_eq_bind, Option.bind_eq_some_iff, Prod.exists] at found
    obtain ⟨afterKeyword, keyword, condition, after, opened, built⟩ := found
    obtain ⟨rfl, absent⟩ := Text.cutAt?_eq_some_iff.mp opened
    split at built
    · simp at built
    · rename_i nonempty
      simp only [Option.pure_def, Option.some.injEq, Prod.mk.injEq] at built
      obtain ⟨rfl, rfl⟩ := built
      exact ⟨condition, by simpa using nonempty, absent, rfl⟩
  · intro stands
    obtain ⟨⟨condition, nonempty, absent, rfl⟩, rfl⟩ := stands
    have keyword : Text.afterStart? mediaKeyword
        (mediaKeyword ++ condition ++ ['\x7b'] ++ rest) = some (condition ++ '\x7b' :: rest) :=
      Text.afterStart?_eq_some_iff.mpr (by simp)
    have opened : Text.cutAt? '\x7b' (condition ++ '\x7b' :: rest) = some (condition, rest) :=
      Text.cutAt?_eq_some_iff.mpr ⟨rfl, absent⟩
    simp only [header?, keyword, opened, Option.bind_eq_bind, Option.bind_some]
    simp [nonempty]

instance (header : Text) : Decidable (IsHeader header) :=
  decidable_of_iff (header? header = some (header, []))
    (header?_eq_some_iff.trans ⟨fun read => read.1, fun isHeader => ⟨isHeader, by simp⟩⟩)

theorem headed?_eq_some_iff {text rest : Text} {occurrence : Occurrence} :
    headed? text = some (occurrence, rest) ↔
      occurrence.media ≠ none ∧ occurrence.WellFormed ∧ text = occurrence.text ++ rest := by
  constructor
  · intro found
    have split := headed?_eq_append found
    simp only [headed?, Option.bind_eq_bind, Option.bind_eq_some_iff, Option.pure_def,
      Option.some.injEq, Prod.exists, Prod.mk.injEq] at found
    obtain ⟨header, afterHeader, headerRead, inner, after, bareRead, rfl, rfl⟩ := found
    obtain ⟨isHeader, _⟩ := header?_eq_some_iff.mp headerRead
    obtain ⟨_, wellFormed, _⟩ := bare?_eq_some_iff.mp bareRead
    refine ⟨by simp, { wellFormed with header := ?_ }, split⟩
    intro other same
    exact Option.some.inj same ▸ isHeader
  · intro stands
    obtain ⟨hasMedia, wellFormed, rfl⟩ := stands
    obtain ⟨media, selectors, declarations⟩ := occurrence
    cases media with
    | none => exact absurd rfl hasMedia
    | some header =>
        have innerWellFormed : (⟨none, selectors, declarations⟩ : Occurrence).WellFormed :=
          { wellFormed with header := by simp }
        have bareRead := bare?_eq_some_iff.mpr
          ⟨rfl, innerWellFormed, Eq.refl (text ⟨none, selectors, declarations⟩ ++ rest)⟩
        have headerRead : header? (text ⟨some header, selectors, declarations⟩ ++ rest) =
            some (header, text ⟨none, selectors, declarations⟩ ++ rest) := by
          rw [header?_eq_some_iff]
          exact ⟨wellFormed.header header rfl, by simp [text]⟩
        simp [headed?, headerRead, bareRead]

theorem WellFormed.head?_text_eq_at_iff {occurrence : Occurrence}
    (wellFormed : occurrence.WellFormed) :
    occurrence.text.head? = some '@' ↔ occurrence.media ≠ none := by
  obtain ⟨media, selectors, declarations⟩ := occurrence
  cases media with
  | none =>
      cases selectors with
      | nil => exact absurd rfl wellFormed.selectors_ne_nil
      | cons first rest =>
          have notAt : first ≠ '@' := by
            intro atSign
            subst atSign
            exact wellFormed.at_not_mem_selectors List.mem_cons_self
          simp [text, notAt]
  | some header =>
      obtain ⟨condition, _, _, rfl⟩ := wellFormed.header header rfl
      simp [text, mediaKeyword]

/-- A text is read as a rule exactly where it starts with a well-formed occurrence. -/
theorem at?_eq_some_iff {text rest : Text} {occurrence : Occurrence} :
    at? text = some (occurrence, rest) ↔
      occurrence.WellFormed ∧ text = occurrence.text ++ rest := by
  constructor
  · intro found
    cases headed : headed? text with
    | some read =>
        simp only [at?, headed, Option.orElse_eq_orElse, Option.orElse_some, Option.some.injEq]
          at found
        subst found
        exact (headed?_eq_some_iff.mp headed).2
    | none =>
        simp only [at?, headed, Option.orElse_eq_orElse, Option.orElse_none] at found
        exact (bare?_eq_some_iff.mp found).2
  · intro stands
    obtain ⟨wellFormed, split⟩ := stands
    cases media : occurrence.media with
    | some header =>
        have headed := headed?_eq_some_iff.mpr ⟨by simp [media], wellFormed, split⟩
        simp [at?, headed]
    | none =>
        have bare := bare?_eq_some_iff.mpr ⟨media, wellFormed, split⟩
        -- A header would start with an `@`, which the selectors may not hold.
        have notHeaded : headed? text = none := by
          rw [Option.eq_none_iff_forall_ne_some]
          intro read headed
          rcases read with ⟨other, otherRest⟩
          obtain ⟨hasMedia, otherWellFormed, otherSplit⟩ := headed?_eq_some_iff.mp headed
          have starts := otherWellFormed.head?_text_eq_at_iff.mpr hasMedia
          rw [← List.head?_append_of_ne_nil _ other.text_ne_nil, ← otherSplit, split,
            List.head?_append_of_ne_nil _ occurrence.text_ne_nil,
            wellFormed.head?_text_eq_at_iff] at starts
          exact starts media
        simp [at?, notHeaded, bare]

/-- Where an opening brace with text on both sides comes before the closing brace and every `@`,
some rule can be read, though the brace need not be the one that divides it. -/
theorem bare?_ne_none {selectors declarations : Text} (selectorsNonempty : selectors ≠ [])
    (atAbsent : '@' ∉ selectors) (closeAbsentSelectors : '\x7d' ∉ selectors)
    (declarationsNonempty : declarations ≠ []) (closeAbsentDeclarations : '\x7d' ∉ declarations)
    (rest : Text) : bare? (selectors ++ '\x7b' :: (declarations ++ '\x7d' :: rest)) ≠ none := by
  have closed : Text.cutAt? '\x7d' (selectors ++ '\x7b' :: (declarations ++ '\x7d' :: rest)) =
      some (selectors ++ '\x7b' :: declarations, rest) := by
    rw [Text.cutAt?_eq_some_iff]
    exact ⟨by simp, by simp [closeAbsentSelectors, closeAbsentDeclarations]⟩
  have divided : parts? (selectors ++ '\x7b' :: declarations) ≠ none := by
    cases selectors with
    | nil => exact absurd rfl selectorsNonempty
    | cons first before =>
        rw [List.mem_cons, not_or] at atAbsent
        have cut : cutAtLastBrace? (before ++ '\x7b' :: declarations) ≠ none := by
          rw [Ne, cutAtLastBrace?_eq_none_iff]
          intro undivided
          exact atAbsent.2 (undivided before declarations rfl declarationsNonempty)
        simpa [parts?, Ne.symm atAbsent.1] using cut
  obtain ⟨parts, partsRead⟩ := Option.ne_none_iff_exists'.mp divided
  simp [bare?, closed, partsRead]

theorem at?_ne_none_of_bare?_ne_none {text : Text} (readable : bare? text ≠ none) :
    at? text ≠ none := by
  cases headed : headed? text with
  | none => simpa [at?, headed] using readable
  | some read => simp [at?, headed]

/-- No rule starts where an `@` or a closing brace comes before every opening brace, unless the `@`
stands at the very start and may begin a media header. -/
theorem at?_eq_none_of_stop {before after : Text} {stop : Char} (braceAbsent : '\x7b' ∉ before)
    (atAbsent : '@' ∉ before) (isStop : stop = '@' ∧ before ≠ [] ∨ stop = '\x7d') :
    at? (before ++ stop :: after) = none := by
  rw [Option.eq_none_iff_forall_ne_some]
  intro read found
  rcases read with ⟨occurrence, rest⟩
  obtain ⟨wellFormed, split⟩ := at?_eq_some_iff.mp found
  by_cases media : occurrence.media = none
  · -- The stop comes before the first opening brace, so the selectors hold it.
    rw [text, media, Option.getD_none, List.nil_append, List.append_assoc, List.cons_append] at split
    have stopMember : stop ≠ '\x7b' → stop ∈ occurrence.selectors :=
      Text.mem_of_append_cons_eq split braceAbsent
    rcases isStop with ⟨rfl, _⟩ | rfl
    · exact wellFormed.at_not_mem_selectors (stopMember (by decide))
    · exact wellFormed.close_not_mem_selectors (stopMember (by decide))
  · have starts := wellFormed.head?_text_eq_at_iff.mpr media
    rw [← List.head?_append_of_ne_nil _ occurrence.text_ne_nil, ← split] at starts
    cases before with
    | nil =>
        cases isStop with
        | inl atSign => exact atSign.2 rfl
        | inr close => simp [close] at starts
    | cons first before =>
        obtain rfl : first = '@' := by simpa using starts
        exact atAbsent List.mem_cons_self

/-- An occurrence ends at the first closing brace after the first opening brace. -/
theorem WellFormed.exists_braces {occurrence : Occurrence} (wellFormed : occurrence.WellFormed) :
    ∃ before inner, occurrence.text = before ++ '\x7b' :: (inner ++ ['\x7d']) ∧
      '\x7b' ∉ before ∧ '\x7d' ∉ inner := by
  obtain ⟨media, selectors, declarations⟩ := occurrence
  have closeAbsent : '\x7d' ∉ selectors ++ '\x7b' :: declarations := by
    simp [wellFormed.close_not_mem_selectors, wellFormed.close_not_mem_declarations]
  cases media with
  | none =>
      -- The selectors may hold opening braces, so the first one need not be the one behind them.
      have present : '\x7b' ∈ selectors ++ '\x7b' :: declarations := by simp
      obtain ⟨before, inner, split, absent⟩ := List.eq_append_cons_of_mem present
      refine ⟨before, inner, ?_, absent, ?_⟩
      · have joined := congrArg (· ++ ['\x7d']) split
        simpa [text] using joined
      · rw [split] at closeAbsent
        intro member
        exact closeAbsent (by simp [member])
  | some header =>
      obtain ⟨condition, _, absent, rfl⟩ := wellFormed.header header rfl
      refine ⟨mediaKeyword ++ condition, selectors ++ '\x7b' :: declarations, ?_, ?_, closeAbsent⟩
      · simp [text]
      · have keyword : '\x7b' ∉ mediaKeyword := by decide
        simp [absent, keyword]

theorem WellFormed.rest_eq {occurrence : Occurrence} (wellFormed : occurrence.WellFormed)
    {before inner rest otherRest : Text}
    (split : occurrence.text ++ otherRest = before ++ '\x7b' :: (inner ++ '\x7d' :: rest))
    (openAbsent : '\x7b' ∉ before) (closeAbsent : '\x7d' ∉ inner) : otherRest = rest := by
  obtain ⟨otherBefore, otherInner, braces, otherOpenAbsent, otherCloseAbsent⟩ :=
    wellFormed.exists_braces
  rw [braces, List.append_assoc, List.cons_append, List.append_assoc] at split
  have opened := Text.append_cons_inj split otherOpenAbsent openAbsent
  have closed := Text.append_cons_inj opened.2 otherCloseAbsent closeAbsent
  exact closed.2

end ScopedCss.Occurrence
