import ScopedCss.Proofs.Text.Trim
import ScopedCss.Text.Pieces

set_option autoImplicit false

/-!
# Laws of separated lists

The pieces of a text are cut at its separators (`pieces_append_cons`) and do not feel white space
around the text. A list written with separators and white space between its items is cut item by item
(`pieces_intercalate_eq_flatMap`), and the items that are read back as they were are those of
`IsPiece` (`flatMap_pieces`).
-/

namespace ScopedCss.Text

variable {separator : Char}

/-- What can be a piece of a list: something that is not empty, has no white space around it and
does not hold the separator. -/
structure IsPiece (separator : Char) (piece : Text) : Prop where
  nonempty : piece ≠ []
  trimmed : trim piece = piece
  unseparated : separator ∉ piece

instance (piece : Text) : Decidable (IsPiece separator piece) :=
  decidable_of_iff (piece ≠ [] ∧ trim piece = piece ∧ separator ∉ piece)
    ⟨fun ⟨nonempty, trimmed, unseparated⟩ => ⟨nonempty, trimmed, unseparated⟩,
      fun ⟨nonempty, trimmed, unseparated⟩ => ⟨nonempty, trimmed, unseparated⟩⟩

theorem pieces_append_cons (before after : Text) :
    pieces separator (before ++ separator :: after) =
      pieces separator before ++ pieces separator after := by
  simp only [pieces, List.splitOn_append_cons_self, List.map_append, List.filter_append]

theorem pieces_eq_of_not_mem {text : Text} (absent : separator ∉ text) :
    pieces separator text = if trim text = [] then [] else [trim text] := by
  rw [pieces, List.splitOn_eq_singleton absent]
  split
  · rename_i emptied
    simp [emptied]
  · rename_i kept
    simp [kept]

theorem pieces_eq_nil_of_blank {text : Text} (solid : isBlank separator = false)
    (blank : Blank text) : pieces separator text = [] := by
  rw [pieces_eq_of_not_mem (blank.not_mem solid), if_pos (trim_eq_nil_iff.mpr blank)]

theorem pieces_eq_of_not_blank {text : Text} (absent : separator ∉ text)
    (solid : ¬ Blank text) : pieces separator text = [trim text] := by
  rw [pieces_eq_of_not_mem absent, if_neg (mt trim_eq_nil_iff.mp solid)]

theorem IsPiece.pieces {piece : Text} (isPiece : IsPiece separator piece) :
    Text.pieces separator piece = [piece] := by
  rw [pieces_eq_of_not_mem isPiece.unseparated, isPiece.trimmed, if_neg isPiece.nonempty]

theorem IsPiece.append_space {first second : Text} (firstPiece : IsPiece separator first)
    (secondPiece : IsPiece separator second) (notSpace : separator ≠ ' ') :
    IsPiece separator (first ++ ' ' :: second) := by
  refine ⟨by simp, ?_, ?_⟩
  · have starts := (trim_eq_self_iff.mp firstPiece.trimmed).1
    have ends := (trim_eq_self_iff.mp secondPiece.trimmed).2
    rw [trim_eq_self_iff, List.head?_append_of_ne_nil _ firstPiece.nonempty,
      List.getLast?_append_cons, List.getLast?_cons_of_ne_nil secondPiece.nonempty]
    exact ⟨starts, ends⟩
  · simp [firstPiece.unseparated, secondPiece.unseparated, notSpace]

/-- Texts are taken apart at their first separator: a property of texts without the separator that
goes over from the text after a separator to the text with a part before it holds of all texts. -/
@[elab_as_elim]
theorem separated_induction (separator : Char) {motive : Text → Prop}
    (single : ∀ text, separator ∉ text → motive text)
    (cons : ∀ before after, separator ∉ before → motive after →
      motive (before ++ separator :: after))
    (text : Text) : motive text := by
  by_cases present : separator ∈ text
  · obtain ⟨before, after, parts, absent⟩ := List.eq_append_cons_of_mem present
    have shorter : after.length < text.length := by
      rw [parts]
      simp only [List.length_append, List.length_cons]
      omega
    rw [parts]
    exact cons before after absent (separated_induction separator single cons after)
  · exact single text present
termination_by text.length

theorem pieces_append_append (solid : isBlank separator = false) {lead tail : Text}
    (leadBlank : Blank lead) (tailBlank : Blank tail) (text : Text) :
    pieces separator (lead ++ text ++ tail) = pieces separator text := by
  induction text using separated_induction separator generalizing lead with
  | single text absent =>
      have absentAround : separator ∉ lead ++ text ++ tail := by
        simp [absent, leadBlank.not_mem solid, tailBlank.not_mem solid]
      rw [pieces_eq_of_not_mem absent, pieces_eq_of_not_mem absentAround,
        trim_append_append leadBlank tailBlank]
  | cons before after absent ih =>
      have absentBefore : separator ∉ lead ++ before := by
        simp [absent, leadBlank.not_mem solid]
      have first : pieces separator (lead ++ before) = pieces separator before := by
        rw [pieces_eq_of_not_mem absent, pieces_eq_of_not_mem absentBefore,
          trim_append_left leadBlank]
      have later : pieces separator (after ++ tail) = pieces separator after := ih blank_nil
      rw [show lead ++ (before ++ separator :: after) ++ tail =
          (lead ++ before) ++ separator :: (after ++ tail) by simp,
        pieces_append_cons, pieces_append_cons, first, later]

theorem pieces_append_left (solid : isBlank separator = false) {lead : Text}
    (leadBlank : Blank lead) (text : Text) :
    pieces separator (lead ++ text) = pieces separator text := by
  simpa using pieces_append_append solid leadBlank blank_nil text

theorem pieces_append_right (solid : isBlank separator = false) {tail : Text}
    (tailBlank : Blank tail) (text : Text) :
    pieces separator (text ++ tail) = pieces separator text := by
  simpa using pieces_append_append solid blank_nil tailBlank text

theorem pieces_trim (solid : isBlank separator = false) (text : Text) :
    pieces separator (trim text) = pieces separator text := by
  obtain ⟨lead, tail, leadBlank, tailBlank, parts⟩ := exists_blank_trim_blank text
  conv => rhs; rw [parts]
  exact (pieces_append_append solid leadBlank tailBlank _).symm

theorem exists_pieces_append_singleton {character : Char} (solid : isBlank character = false)
    (different : character ≠ separator) (text : Text) :
    ∃ earlier last,
      pieces separator (text ++ [character]) = earlier ++ [last ++ [character]] := by
  induction text using separated_induction separator with
  | single text absent =>
      have unseparated : separator ∉ text ++ [character] := by simp [absent, different.symm]
      refine ⟨[], trimStart text, ?_⟩
      have kept : ¬ Blank (text ++ [character]) := not_blank_of_mem solid (by simp)
      rw [pieces_eq_of_not_blank unseparated kept, trim_append_singleton solid, List.nil_append]
  | cons before after absent ih =>
      obtain ⟨earlier, last, split⟩ := ih
      refine ⟨pieces separator before ++ earlier, last, ?_⟩
      rw [List.append_assoc, List.cons_append, pieces_append_cons, split, List.append_assoc]

/-- A piece is the trimmed form of a stretch of the text without separators. -/
theorem exists_part_of_mem_pieces {text piece : Text} (member : piece ∈ pieces separator text) :
    piece ≠ [] ∧ ∃ part, part <:+: text ∧ separator ∉ part ∧ piece = trim part := by
  have single : ∀ text, separator ∉ text → piece ∈ pieces separator text →
      piece ≠ [] ∧ piece = trim text := by
    intro text absent member
    rw [pieces_eq_of_not_mem absent] at member
    split at member
    · cases member
    · rename_i kept
      obtain rfl := List.mem_singleton.mp member
      exact ⟨kept, rfl⟩
  induction text using separated_induction separator with
  | single text absent =>
      obtain ⟨nonempty, trimmed⟩ := single text absent member
      exact ⟨nonempty, text, List.infix_rfl, absent, trimmed⟩
  | cons before after absent ih =>
      rw [pieces_append_cons] at member
      cases List.mem_append.mp member with
      | inl inBefore =>
          obtain ⟨nonempty, trimmed⟩ := single before absent inBefore
          exact ⟨nonempty, before, (List.prefix_append _ _).isInfix, absent, trimmed⟩
      | inr inAfter =>
          obtain ⟨nonempty, part, inside, partAbsent, trimmed⟩ := ih inAfter
          have covered : after <:+: before ++ separator :: after :=
            ⟨before ++ [separator], [], by simp⟩
          exact ⟨nonempty, part, inside.trans covered, partAbsent, trimmed⟩

theorem isPiece_of_mem_pieces {text piece : Text} (member : piece ∈ pieces separator text) :
    IsPiece separator piece := by
  obtain ⟨nonempty, part, _, absent, rfl⟩ := exists_part_of_mem_pieces member
  exact ⟨nonempty, trim_trim part, fun inTrim => absent (trim_subset part inTrim)⟩

theorem infix_of_mem_pieces {text piece : Text} (member : piece ∈ pieces separator text) :
    piece <:+: text := by
  obtain ⟨_, part, inside, _, rfl⟩ := exists_part_of_mem_pieces member
  exact (trim_infix_self part).trans inside

theorem subset_of_mem_pieces {text piece : Text} (member : piece ∈ pieces separator text) :
    piece ⊆ text := (infix_of_mem_pieces member).subset

theorem intercalate_cons (between first : Text) (later : List Text) :
    List.intercalate between (first :: later) =
      first ++ (later.map (between ++ ·)).flatten := by
  induction later generalizing first with
  | nil => simp
  | cons next later ih => simp [List.intercalate_cons_cons, ih next]

/-- What stands around an item of a written list does not depend on the item. -/
theorem exists_intercalate_eq (between : Text) (earlier later : List Text) :
    ∃ front back, ∀ item,
      List.intercalate between (earlier ++ item :: later) = front ++ item ++ back := by
  cases earlier with
  | nil =>
      refine ⟨[], (later.map (between ++ ·)).flatten, ?_⟩
      intro item
      rw [List.nil_append, intercalate_cons, List.nil_append]
  | cons first earlier =>
      refine ⟨first ++ (earlier.map (between ++ ·)).flatten ++ between,
        (later.map (between ++ ·)).flatten, ?_⟩
      intro item
      rw [List.cons_append, intercalate_cons]
      simp

theorem mem_of_mem_intercalate {between : Text} {items : List Text} {character : Char}
    (member : character ∈ List.intercalate between items) :
    character ∈ between ∨ ∃ item ∈ items, character ∈ item := by
  cases items with
  | nil => cases member
  | cons first later =>
      rw [intercalate_cons, List.mem_append, List.mem_flatten] at member
      cases member with
      | inl inFirst => exact .inr ⟨first, List.mem_cons_self, inFirst⟩
      | inr inLater =>
          obtain ⟨part, partMember, inPart⟩ := inLater
          obtain ⟨item, itemMember, rfl⟩ := List.mem_map.mp partMember
          cases List.mem_append.mp inPart with
          | inl inBetween => exact .inl inBetween
          | inr inItem => exact .inr ⟨item, List.mem_cons_of_mem _ itemMember, inItem⟩

theorem filter_intercalate {keep : Char → Bool} {between : Text}
    (drop : between.filter keep = []) (items : List Text) :
    (List.intercalate between items).filter keep = (items.map (List.filter keep)).flatten := by
  cases items with
  | nil => rfl
  | cons first later =>
      have dropped : ∀ item : Text, (between ++ item).filter keep = item.filter keep := by
        intro item
        rw [List.filter_append, drop, List.nil_append]
      rw [intercalate_cons, List.filter_append, List.filter_flatten, List.map_map]
      simp [Function.comp_def, dropped]

theorem pieces_intercalate_cons (solid : isBlank separator = false) {space : Text}
    (spaceBlank : Blank space) (first : Text) (later : List Text) :
    pieces separator (List.intercalate (separator :: space) (first :: later)) =
      pieces separator first ++ pieces separator (List.intercalate (separator :: space) later) := by
  cases later with
  | nil =>
      have ending : pieces separator [] = [] := pieces_eq_nil_of_blank solid blank_nil
      rw [List.intercalate_singleton, List.intercalate_nil, ending, List.append_nil]
  | cons next later =>
      rw [List.intercalate_cons_cons, List.append_assoc, List.cons_append, pieces_append_cons,
        pieces_append_left solid spaceBlank]

/-- A written list is cut wherever its items hold the separator, and between them. -/
theorem pieces_intercalate_eq_flatMap (solid : isBlank separator = false) {space : Text}
    (spaceBlank : Blank space) (items : List Text) :
    pieces separator (List.intercalate (separator :: space) items) =
      items.flatMap (pieces separator) := by
  induction items with
  | nil => exact pieces_eq_nil_of_blank solid blank_nil
  | cons item items ih =>
      rw [pieces_intercalate_cons solid spaceBlank, ih, List.flatMap_cons]

theorem flatMap_pieces {items : List Text} (isPiece : ∀ item ∈ items, IsPiece separator item) :
    items.flatMap (pieces separator) = items := by
  have whole : items.flatMap (pieces separator) = items.flatMap fun item => [item] :=
    List.flatMap_congr fun item member => (isPiece item member).pieces
  rw [whole, List.flatMap_singleton']

/-- Text behind a written list changes the last item of it only. -/
theorem pieces_intercalate_append (solid : isBlank separator = false) {space : Text}
    (spaceBlank : Blank space) {items : List Text} (isPiece : ∀ item ∈ items, IsPiece separator item)
    (last tail : Text) :
    pieces separator (List.intercalate (separator :: space) (items ++ [last]) ++ tail) =
      items ++ pieces separator (last ++ tail) := by
  induction items with
  | nil => simp
  | cons item items ih =>
      have later := ih fun item member => isPiece item (List.mem_cons_of_mem _ member)
      obtain ⟨next, rest, split⟩ : ∃ next rest, items ++ [last] = next :: rest :=
        List.exists_cons_of_ne_nil (by simp)
      rw [List.cons_append, split, List.intercalate_cons_cons, ← split, List.append_assoc,
        List.append_assoc, List.cons_append, pieces_append_cons,
        pieces_append_left solid spaceBlank, (isPiece item List.mem_cons_self).pieces, later,
        List.singleton_append, List.cons_append]

/-- Cutting and trimming lose nothing but separators and white space. -/
theorem filter_flatten_pieces {keep : Char → Bool} (dropSeparator : keep separator = false)
    (dropBlank : ∀ character, isBlank character = true → keep character = false) (text : Text) :
    (pieces separator text).flatten.filter keep = text.filter keep := by
  have unseparated : ∀ text, separator ∉ text →
      (pieces separator text).flatten.filter keep = text.filter keep := by
    intro text absent
    rw [pieces_eq_of_not_mem absent, ← filter_trim dropBlank text]
    split
    · rename_i emptied
      simp [emptied]
    · simp
  induction text using separated_induction separator with
  | single text absent => exact unseparated text absent
  | cons before after absent ih =>
      rw [pieces_append_cons, List.flatten_append, List.filter_append, unseparated before absent,
        ih, List.filter_append, List.filter_cons_of_neg (by simp [dropSeparator])]

end ScopedCss.Text
