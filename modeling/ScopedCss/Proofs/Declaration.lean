import Mathlib.Data.List.Forall2
import ScopedCss.Declaration
import ScopedCss.Proofs.Text.Pieces

set_option autoImplicit false

/-!
# Laws of important declarations

A printed list of declarations is read back as it was, so making a list important works declaration
by declaration (`list_makeAllImportant`) and doing it twice is doing it once. Beside semicolons,
white space and the marker it neither takes away nor adds a character (`filter_makeAllImportant`).
-/

namespace ScopedCss.Declaration

open Text (IsPiece)

theorem isPiece_importantMark : IsPiece ';' importantMark := by decide

theorem isPiece_makeImportant {declaration : Text} (isPiece : IsPiece ';' declaration) :
    IsPiece ';' (makeImportant declaration) := by
  by_cases present : isImportant declaration = true
  · rwa [makeImportant, if_pos present]
  · rw [makeImportant, if_neg present]
    exact isPiece.append_space isPiece_importantMark (by decide)

theorem list_printList_eq_flatMap (declarations : List Text) :
    list (printList declarations) = declarations.flatMap list := by
  have ending : Text.pieces ';' [] = [] :=
    Text.pieces_eq_nil_of_blank Text.isBlank_semicolon Text.blank_nil
  rw [list, printList, Text.pieces_append_cons, ending, List.append_nil]
  exact Text.pieces_intercalate_eq_flatMap Text.isBlank_semicolon Text.blank_space declarations

theorem list_printList {declarations : List Text}
    (isPiece : ∀ declaration ∈ declarations, IsPiece ';' declaration) :
    list (printList declarations) = declarations :=
  (list_printList_eq_flatMap declarations).trans (Text.flatMap_pieces isPiece)

theorem isPiece_of_mem_map_makeImportant (body : Text) :
    ∀ declaration ∈ (list body).map makeImportant, IsPiece ';' declaration :=
  List.forall_mem_map.mpr fun _ member => isPiece_makeImportant (Text.isPiece_of_mem_pieces member)

theorem list_makeAllImportant (body : Text) :
    list (makeAllImportant body) = (list body).map makeImportant :=
  list_printList (isPiece_of_mem_map_makeImportant body)

theorem makeAllImportant_idem (body : Text) :
    makeAllImportant (makeAllImportant body) = makeAllImportant body := by
  rw [makeAllImportant, list_makeAllImportant, List.map_map, makeAllImportant]
  congr 1
  apply List.map_congr_left
  intro declaration _
  exact makeImportant_idem declaration

theorem trim_printList {declarations : List Text}
    (isPiece : ∀ declaration ∈ declarations, IsPiece ';' declaration) :
    Text.trim (printList declarations) = printList declarations := by
  rw [Text.trim_eq_self_iff]
  constructor
  · cases declarations with
    | nil =>
        intro character starts
        obtain rfl : ';' = character := by simpa [printList] using starts
        exact Text.isBlank_semicolon
    | cons first later =>
        have firstPiece := isPiece first List.mem_cons_self
        rw [printList, Text.intercalate_cons, List.append_assoc,
          List.head?_append_of_ne_nil _ firstPiece.nonempty]
        exact (Text.trim_eq_self_iff.mp firstPiece.trimmed).1
  · intro character ends
    obtain rfl : ';' = character := by simpa [printList] using ends
    exact Text.isBlank_semicolon

theorem trim_makeAllImportant (body : Text) :
    Text.trim (makeAllImportant body) = makeAllImportant body :=
  trim_printList (isPiece_of_mem_map_makeImportant body)

theorem filter_makeAllImportant {keep : Char → Bool}
    (dropBlank : ∀ character, Text.isBlank character = true → keep character = false)
    (dropSeparator : keep ';' = false) (dropMark : importantMark.filter keep = [])
    (body : Text) : (makeAllImportant body).filter keep = body.filter keep := by
  have dropSpace : keep ' ' = false := dropBlank ' ' (Text.blank_space ' ' List.mem_cons_self)
  have marked : ∀ declaration, (makeImportant declaration).filter keep = declaration.filter keep := by
    intro declaration
    by_cases present : isImportant declaration = true
    · rw [makeImportant, if_pos present]
    · rw [makeImportant, if_neg present, List.filter_append,
        List.filter_cons_of_neg (by simp [dropSpace]), dropMark, List.append_nil]
  have printed : (printList ((list body).map makeImportant)).filter keep =
      (list body).flatten.filter keep := by
    rw [printList, List.filter_append, Text.filter_intercalate (by simp [dropSeparator, dropSpace]),
      List.map_map, List.filter_flatten]
    simp [Function.comp_def, marked, dropSeparator]
  rw [makeAllImportant, printed]
  exact Text.filter_flatten_pieces dropSeparator dropBlank body

theorem not_mem_makeAllImportant {character : Char} {body : Text}
    (solid : Text.isBlank character = false) (notSeparator : character ≠ ';')
    (notMark : character ∉ importantMark) (absent : character ∉ body) :
    character ∉ makeAllImportant body := by
  have same : (makeAllImportant body).filter (· == character) = body.filter (· == character) := by
    apply filter_makeAllImportant
    · intro other blank
      rw [beq_eq_false_iff_ne]
      intro same
      rw [same, solid] at blank
      cases blank
    · exact beq_eq_false_iff_ne.mpr notSeparator.symm
    · rw [List.filter_eq_nil_iff]
      intro other member same
      exact notMark (beq_iff_eq.mp same ▸ member)
  intro member
  have kept : character ∈ (makeAllImportant body).filter (· == character) := by simp [member]
  rw [same] at kept
  exact absent (List.mem_of_mem_filter kept)

/-- Every opening brace has an `@` somewhere before it. -/
def Guarded (body : Text) : Prop :=
  ∀ before after, body = before ++ '\x7b' :: after → '@' ∈ before

/-- It is the first of all `@` and opening braces that decides. -/
theorem guarded_iff_find?_ne {body : Text} :
    Guarded body ↔
      body.find? (fun character => character == '@' || character == '\x7b') ≠ some '\x7b' := by
  constructor
  · intro guarded first
    obtain ⟨_, before, after, split, skipped⟩ := List.find?_eq_some_iff_append.mp first
    have atMember := guarded before after split
    exact absurd (skipped '@' atMember) (by decide)
  · intro first before after split
    subst split
    -- Without an `@` before it the brace, or one before it, is the first of them all.
    by_contra atAbsent
    apply first
    rw [List.find?_append]
    cases inBefore : before.find? fun character => character == '@' || character == '\x7b' with
    | none => simp
    | some character =>
        have member := List.mem_of_find?_eq_some inBefore
        have kind := List.find?_some inBefore
        rw [Bool.or_eq_true, beq_iff_eq, beq_iff_eq] at kind
        rcases kind with rfl | rfl
        · exact absurd member atAbsent
        · rfl

instance (body : Text) : Decidable (Guarded body) :=
  decidable_of_iff _ guarded_iff_find?_ne.symm

theorem guarded_makeAllImportant {body : Text} (guarded : Guarded body) :
    Guarded (makeAllImportant body) := by
  rw [guarded_iff_find?_ne, ← List.head?_filter] at guarded ⊢
  rwa [filter_makeAllImportant]
  · intro character blank
    by_contra kept
    rw [Bool.not_eq_false, Bool.or_eq_true, beq_iff_eq, beq_iff_eq] at kept
    rcases kept with rfl | rfl
    · simp at blank
    · simp at blank
  · rfl
  · rfl

theorem Guarded.append_append {body lead tail : Text} (guarded : Guarded body)
    (leadAbsent : '\x7b' ∉ lead) (tailAbsent : '\x7b' ∉ tail) : Guarded (lead ++ body ++ tail) := by
  rw [guarded_iff_find?_ne] at guarded ⊢
  intro first
  rw [List.find?_append, List.find?_append, Option.or_eq_some_iff, Option.or_eq_some_iff] at first
  rcases first with (inLead | ⟨_, inBody⟩) | ⟨_, inTail⟩
  · exact leadAbsent (List.mem_of_find?_eq_some inLead)
  · exact guarded inBody
  · exact tailAbsent (List.mem_of_find?_eq_some inTail)

/-! ## Normal forms -/

/-- The lists that are written as they are printed, with nothing left to mark. -/
inductive Normal : Text → Prop where
  | empty : Normal [';']
  | printed {declarations : List Text} (nonempty : declarations ≠ [])
      (important : ∀ declaration ∈ declarations,
        IsPiece ';' declaration ∧ importantMark <:+: declaration) :
      Normal (List.intercalate "; ".toList declarations ++ [';'])

/-- What making a declaration important turns it into. -/
def Marks (source marked : Text) : Prop :=
  importantMark <:+: source ∧ marked = source ∨
    ¬ importantMark <:+: source ∧ marked = source ++ ' ' :: importantMark

theorem marks_makeImportant (declaration : Text) :
    Marks declaration (makeImportant declaration) := by
  by_cases present : isImportant declaration = true
  · exact .inl ⟨isImportant_iff.mp present, if_pos present⟩
  · exact .inr ⟨fun contained => present (isImportant_iff.mpr contained), if_neg present⟩

theorem normal_printList {declarations : List Text}
    (important : ∀ declaration ∈ declarations,
      IsPiece ';' declaration ∧ importantMark <:+: declaration) :
    Normal (printList declarations) := by
  cases declarations with
  | nil => exact .empty
  | cons first later => exact .printed (List.cons_ne_nil first later) important

theorem normal_makeAllImportant (body : Text) : Normal (makeAllImportant body) := by
  apply normal_printList
  intro declaration member
  obtain ⟨source, sourceMember, rfl⟩ := List.mem_map.mp member
  exact ⟨isPiece_makeImportant (Text.isPiece_of_mem_pieces sourceMember),
    isImportant_iff.mp (isImportant_makeImportant source)⟩

theorem makeAllImportant_printList {declarations : List Text}
    (important : ∀ declaration ∈ declarations,
      IsPiece ';' declaration ∧ importantMark <:+: declaration) :
    makeAllImportant (printList declarations) = printList declarations := by
  have unchanged : declarations.map makeImportant = declarations.map id :=
    List.map_congr_left fun declaration member =>
      if_pos (isImportant_iff.mpr (important declaration member).2)
  rw [makeAllImportant, list_printList fun declaration member => (important declaration member).1,
    unchanged, List.map_id]

theorem Normal.makeAllImportant_eq {text : Text} (normal : Normal text) :
    makeAllImportant text = text := by
  cases normal with
  | empty =>
      have none : ∀ declaration ∈ ([] : List Text),
          IsPiece ';' declaration ∧ importantMark <:+: declaration := nofun
      exact makeAllImportant_printList none
  | printed _ important => exact makeAllImportant_printList important

/-- Making a list important twice is making it important once. The lists that it leaves as they are
are the lone semicolon and the printed lists of important declarations. It writes one declaration
for each that it reads, in their order, and adds nothing but the marker where that is missing. -/
theorem makeAllImportant_normalises (body : Text) :
    makeAllImportant (makeAllImportant body) = makeAllImportant body ∧
    (∀ text, makeAllImportant text = text ↔ Normal text) ∧
    makeAllImportant body = printList (list (makeAllImportant body)) ∧
    List.Forall₂ Marks (list body) (list (makeAllImportant body)) := by
  refine ⟨makeAllImportant_idem body, ?_, ?_, ?_⟩
  · intro text
    constructor
    · intro same
      exact same ▸ normal_makeAllImportant text
    · exact Normal.makeAllImportant_eq
  · rw [list_makeAllImportant, makeAllImportant]
  · rw [list_makeAllImportant, List.forall₂_map_right_iff, List.forall₂_same]
    intro declaration _
    exact marks_makeImportant declaration

end ScopedCss.Declaration
