import ScopedCss.Proofs.Text.Cut
import ScopedCss.Proofs.Text.Pieces

set_option autoImplicit false

/-!
# White space in separated lists

White space around a list and beside its separators does not change its pieces
(`Respaced.pieces_eq`). Put in at any place it changes nothing if the place is a joint of the list
(`IsJoint`), and otherwise it becomes part of one piece (`exists_pieces_insert_of_not_isJoint`).
Where pieces with more white space inside are written longer, the written list shows the difference
(`intercalate_map_pieces_insert_eq_iff`).
-/

namespace ScopedCss.Text

variable {separator : Char}

/-- A list with white space put in around it, or around each of two parts of it that have a
separator between them, and so before and after any of its separators. -/
inductive Respaced (separator : Char) : Text → Text → Prop where
  | around {lead tail : Text} (text : Text) :
      Blank lead → Blank tail → Respaced separator text (lead ++ text ++ tail)
  | beside {before after spacedBefore spacedAfter : Text} :
      Respaced separator before spacedBefore → Respaced separator after spacedAfter →
      Respaced separator (before ++ separator :: after)
        (spacedBefore ++ separator :: spacedAfter)

theorem respaced_trim (text : Text) : Respaced separator (trim text) text := by
  obtain ⟨lead, tail, leadBlank, tailBlank, parts⟩ := exists_blank_trim_blank text
  have around : Respaced separator (trim text) (lead ++ trim text ++ tail) :=
    .around (trim text) leadBlank tailBlank
  rwa [← parts] at around

theorem Respaced.pieces_eq (solid : isBlank separator = false) {text spaced : Text}
    (respaced : Respaced separator text spaced) : pieces separator spaced = pieces separator text := by
  induction respaced with
  | around text leadBlank tailBlank => exact pieces_append_append solid leadBlank tailBlank text
  | beside _ _ beforeIH afterIH =>
      rw [pieces_append_cons, beforeIH, afterIH, pieces_append_cons]

/-! ## Parts without white space -/

theorem infix_append_of_infix_append_cons {character : Char} {part : Text} (absent : character ∉ part)
    {before after : Text} (inside : part <:+: before ++ character :: after) :
    part <:+: before ++ after := by
  -- A part that reached over the character would hold it.
  have start : ∀ second, second ⊆ part → second <+: character :: after → second = [] := by
    intro second covered starts
    cases second with
    | nil => rfl
    | cons first rest =>
        rw [(List.cons_prefix_cons.mp starts).1] at covered
        exact absurd (covered List.mem_cons_self) absent
  obtain inBefore | inRest | ⟨first, second, rfl, ends, starts⟩ := List.infix_append_iff.mp inside
  · exact inBefore.trans (List.prefix_append before after).isInfix
  · cases List.infix_cons_iff.mp inRest with
    | inl atStart =>
        rw [start part (List.Subset.refl part) atStart]
        exact List.nil_infix
    | inr inAfter => exact inAfter.trans (List.suffix_append before after).isInfix
  · rw [start second (List.subset_append_right first second) starts, List.append_nil]
    exact ends.isInfix.trans (List.prefix_append before after).isInfix

/-- White space in the way of a part without white space only breaks it up. -/
theorem infix_append_of_infix_insert {part : Text}
    (solid : ∀ character ∈ part, isBlank character = false) {before inserted after : Text}
    (blank : Blank inserted) (inside : part <:+: before ++ inserted ++ after) :
    part <:+: before ++ after := by
  induction inserted with
  | nil => simpa using inside
  | cons character inserted ih =>
      have absent : character ∉ part := by
        intro member
        have solidCharacter := solid character member
        rw [blank character List.mem_cons_self] at solidCharacter
        cases solidCharacter
      rw [List.append_assoc, List.cons_append] at inside
      apply ih fun other member => blank other (List.mem_cons_of_mem character member)
      rw [List.append_assoc]
      exact infix_append_of_infix_append_cons absent inside

/-! ## Places in a list -/

/-- The text up to the first separator, or all of it. -/
def firstPart (separator : Char) (text : Text) : Text := text.takeWhile (· != separator)

/-- The text behind the last separator, or all of it. -/
def lastPart (separator : Char) (text : Text) : Text := text.rtakeWhile (· != separator)

theorem firstPart_of_not_mem {text : Text} (absent : separator ∉ text) :
    firstPart separator text = text := by
  rw [firstPart, List.takeWhile_eq_self_iff]
  intro character member
  exact bne_iff_ne.mpr (ne_of_mem_of_not_mem member absent)

theorem firstPart_append_cons {before : Text} (absent : separator ∉ before) (after : Text) :
    firstPart separator (before ++ separator :: after) = before := by
  have accepted : ∀ character ∈ before, (character != separator) = true := fun character member =>
    bne_iff_ne.mpr (ne_of_mem_of_not_mem member absent)
  rw [firstPart, List.takeWhile_append_of_pos accepted, List.takeWhile_cons_of_neg (by simp),
    List.append_nil]

theorem lastPart_eq_reverse (text : Text) :
    lastPart separator text = (firstPart separator text.reverse).reverse := rfl

theorem lastPart_of_not_mem {text : Text} (absent : separator ∉ text) :
    lastPart separator text = text := by
  rw [lastPart_eq_reverse, firstPart_of_not_mem (by simpa using absent), List.reverse_reverse]

theorem lastPart_append_cons (before : Text) {after : Text} (absent : separator ∉ after) :
    lastPart separator (before ++ separator :: after) = after := by
  have reversed : (before ++ separator :: after).reverse =
      after.reverse ++ separator :: before.reverse := by simp
  rw [lastPart_eq_reverse, reversed, firstPart_append_cons (by simpa using absent),
    List.reverse_reverse]

theorem not_mem_firstPart (text : Text) : separator ∉ firstPart separator text := by
  intro member
  have accepted := List.mem_takeWhile_imp (p := (· != separator)) member
  simp at accepted

theorem not_mem_lastPart (text : Text) : separator ∉ lastPart separator text := by
  rw [lastPart_eq_reverse, List.mem_reverse]
  exact not_mem_firstPart text.reverse

/-- Text put behind a list goes to its last part. -/
theorem exists_pieces_append_right (text : Text) :
    ∃ earlier, ∀ tail, pieces separator (text ++ tail) =
      earlier ++ pieces separator (lastPart separator text ++ tail) := by
  by_cases present : separator ∈ text
  · obtain ⟨before, after, rfl, absent⟩ := exists_cut_at_last present
    refine ⟨pieces separator before, ?_⟩
    intro tail
    rw [lastPart_append_cons before absent, List.append_assoc, List.cons_append,
      pieces_append_cons]
  · refine ⟨[], ?_⟩
    intro tail
    rw [lastPart_of_not_mem present, List.nil_append]

/-- Text put before a list goes to its first part. -/
theorem exists_pieces_append_left (text : Text) :
    ∃ later, ∀ lead, pieces separator (lead ++ text) =
      pieces separator (lead ++ firstPart separator text) ++ later := by
  by_cases present : separator ∈ text
  · obtain ⟨before, after, rfl, absent⟩ := List.eq_append_cons_of_mem present
    refine ⟨pieces separator after, ?_⟩
    intro lead
    rw [firstPart_append_cons absent, ← List.append_assoc, pieces_append_cons]
  · refine ⟨[], ?_⟩
    intro lead
    rw [firstPart_of_not_mem present, List.append_nil]

/-- What is put in between two parts of a list matters to one stretch between separators only. -/
theorem exists_pieces_insert (before after : Text) :
    ∃ earlier later, ∀ inserted, pieces separator (before ++ inserted ++ after) =
      earlier ++
        pieces separator (lastPart separator before ++ inserted ++ firstPart separator after) ++
          later := by
  obtain ⟨earlier, behind⟩ := @exists_pieces_append_right separator before
  obtain ⟨later, ahead⟩ := @exists_pieces_append_left separator after
  refine ⟨earlier, later, ?_⟩
  intro inserted
  rw [ahead, List.append_assoc before, behind, ← List.append_assoc (lastPart separator before)]

/-- A place in a list that has nothing but white space on one of its sides, as far as the next
separator or the end of the list. -/
def IsJoint (separator : Char) (before after : Text) : Prop :=
  Blank (lastPart separator before) ∨ Blank (firstPart separator after)

instance (before after : Text) : Decidable (IsJoint separator before after) :=
  inferInstanceAs
    (Decidable (Blank (lastPart separator before) ∨ Blank (firstPart separator after)))

section

variable {before after inserted : Text}

theorem pieces_insert_of_isJoint (solid : isBlank separator = false)
    (joint : IsJoint separator before after) (blank : Blank inserted) :
    pieces separator (before ++ inserted ++ after) = pieces separator (before ++ after) := by
  obtain ⟨earlier, later, split⟩ := @exists_pieces_insert separator before after
  have without := split []
  rw [List.append_nil, List.append_nil] at without
  rw [split, without]
  cases joint with
  | inl beforeBlank =>
      rw [pieces_append_left solid (beforeBlank.append blank),
        pieces_append_left solid beforeBlank]
  | inr afterBlank =>
      rw [List.append_assoc (lastPart separator before),
        pieces_append_right solid (blank.append afterBlank),
        pieces_append_right solid afterBlank]

/-- At any other place the white space becomes part of a piece. -/
theorem exists_pieces_insert_of_not_isJoint (solid : isBlank separator = false)
    (inside : ¬ IsJoint separator before after) :
    ∃ earlier front back later, ∀ inserted, Blank inserted →
      pieces separator (before ++ inserted ++ after) =
        earlier ++ (front ++ inserted ++ back) :: later := by
  obtain ⟨beforeSolid, afterSolid⟩ := not_or.mp inside
  obtain ⟨earlier, later, split⟩ := @exists_pieces_insert separator before after
  refine ⟨earlier, trimStart (lastPart separator before), trimEnd (firstPart separator after),
    later, ?_⟩
  intro inserted blank
  have absent :
      separator ∉ lastPart separator before ++ inserted ++ firstPart separator after := by
    simp [not_mem_lastPart, blank.not_mem solid, not_mem_firstPart]
  have trimmed := trim_append_append_of_not_blank beforeSolid afterSolid inserted
  have nonempty : trim (lastPart separator before ++ inserted ++ firstPart separator after) ≠ [] := by
    rw [Ne, trim_eq_nil_iff]
    intro blanks
    exact beforeSolid fun character member => blanks character (by simp [member])
  rw [split, pieces_eq_of_not_mem absent, if_neg nonempty, trimmed, List.append_assoc,
    List.singleton_append]

/-- Writing the pieces out shows exactly the white space that is put in inside a piece. -/
theorem intercalate_map_pieces_insert_eq_iff (solid : isBlank separator = false)
    (blank : Blank inserted) (between : Text) {write : Text → Text}
    (longer : ∀ front back, (write (front ++ back)).length <
      (write (front ++ inserted ++ back)).length) :
    List.intercalate between ((pieces separator (before ++ inserted ++ after)).map write) =
        List.intercalate between ((pieces separator (before ++ after)).map write) ↔
      IsJoint separator before after := by
  constructor
  · intro same
    by_contra inside
    obtain ⟨earlier, front, back, later, split⟩ := exists_pieces_insert_of_not_isJoint solid inside
    have without := split [] blank_nil
    rw [List.append_nil, List.append_nil] at without
    obtain ⟨lead, tail, written⟩ :=
      exists_intercalate_eq between (earlier.map write) (later.map write)
    rw [split inserted blank, without, List.map_append, List.map_append, List.map_cons,
      List.map_cons, written, written] at same
    have lengths := congrArg List.length same
    have different := longer front back
    simp only [List.length_append] at lengths
    omega
  · intro joint
    rw [pieces_insert_of_isJoint solid joint blank]

end

end ScopedCss.Text
