import ScopedCss.Proofs.Json.Truncation
import ScopedCss.Proofs.Settings.Document
import ScopedCss.Proofs.Settings.FirstFault

set_option autoImplicit false

/-!
# Settings files that are cut short

The beginning of a settings file that is accepted is never taken for other settings and never for
other data. Unless only white space is missing, the end of the text comes too early, and `ofFile`
tells so. The one exception are the numbers of members that give no field.
-/

namespace ScopedCss.Settings

open Json

/-! ## Documents that break off in a number -/

/-- A member that gives no field and ends within a number which needs another digit. -/
inductive BrokenMember : Text → Prop where
  | other {name key value source : Text} (isKey : KeySource .strict name key)
      (isOther : ∀ field : Field, field.key ≠ name) (breaksOff : BreaksOff .value value)
      (joined : source = key ++ value) : BrokenMember source

/-- Complete members and a broken one behind them. -/
inductive BrokenMembers (given : Overrides) : Text → Prop where
  | behind {entries : List (List (Field × Text))} {inner last source : Text}
      (leading : Leading Member entries inner) (fresh : given.Fresh entries.flatten)
      (broken : BrokenMember last) (joined : source = inner ++ last) : BrokenMembers given source

inductive BrokenDocument : Text → Prop where
  | opened {lead inner source : Text} (leadSpace : Space lead)
      (broken : BrokenMembers Overrides.none inner) (joined : source = lead ++ '\x7b' :: inner) :
      BrokenDocument source

/-! ## Values of members -/

theorem fieldValue_of_space {space : Text} (isSpace : Space space) :
    fieldValue space = .error .unfinished := by
  rw [fieldValue, skipSpace_eq_nil_iff.mpr isSpace]
  rfl

theorem memberBody_of_space (given : Overrides) (field : Option Field) {space : Text}
    (isSpace : Space space) : memberBody given field space = .error .unfinished := by
  cases field with
  | none =>
      rw [memberBody, isSpace.skip]
      rfl
  | some field =>
      rw [memberBody, fieldValue_of_space isSpace]
      rfl

theorem StringSource.cases_of_cut {value source part : Text} (string : StringSource value source)
    (cut : Cut part source) {space : Text} (isSpace : Space space) :
    StringSource value part ∨ fieldValue (space ++ part) = .error .unfinished := by
  cases string with
  | @spelled lead spelled tail _ leadSpace spelling tailSpace joined =>
      rw [joined] at cut
      rcases cut_append_iff.mp cut with within | ⟨behind, rfl, cutBehind⟩
      · exact .inr (fieldValue_of_space (isSpace.append (leadSpace.of_cut within)))
      · rcases cut_cons_iff.mp cutBehind with rfl | ⟨inner, rfl, cutInner⟩
        · rw [List.append_nil]
          exact .inr (fieldValue_of_space (isSpace.append leadSpace))
        · rw [← List.singleton_append, ← List.append_assoc] at cutInner
          rcases cut_append_iff.mp cutInner with within | ⟨rest, rfl, cutRest⟩
          · have start := (isSpace.append leadSpace).skipSpace_append_cons
              (show Json.isSpace '"' = false from rfl) inner
            rw [List.append_assoc] at start
            rw [fieldValue, start]
            exact .inr (spelling.quoted_of_cut within)
          · exact .inl (.spelled leadSpace spelling (tailSpace.of_cut cutRest) (by simp))

/-! ## Members -/

theorem member_of_cut_key {given : Overrides} {name key part : Text}
    (isKey : KeySource .strict name key) (usable : Usable given name) (cut : Cut part key) :
    member given part = .error .unfinished := by
  rcases isKey.cases_of_cut cut with
    refused | ⟨string, rest, before, after, isString, beforeSpace, afterSpace, cutRest, rfl⟩
  · rw [member_eq_bind, refused]
    rfl
  · rw [member_append_of_keyString isString, memberValue_eq_bind usable]
    exact mark_bind_of_cut rfl beforeSpace afterSpace cutRest
      fun space isSpace => memberBody_of_space given _ isSpace

theorem exists_member_append_of_key {given : Overrides} {name key : Text}
    (isKey : KeySource .strict name key) (usable : Usable given name) :
    ∃ space, Space space ∧ ∀ rest,
      member given (key ++ rest) = memberBody given (Field.ofKey? name) (space ++ rest) := by
  obtain ⟨string, before, after, isString, beforeSpace, afterSpace, rfl⟩ := isKey.exists_keyString
  refine ⟨after, afterSpace, ?_⟩
  intro rest
  have colonRead := (mark_eq_ok_iff rfl).mpr
    ⟨before, beforeSpace, Eq.refl (before ++ ':' :: (after ++ rest))⟩
  simp only [List.append_assoc, List.cons_append]
  rw [member_append_of_keyString isString, memberValue_eq_bind usable, colonRead]
  rfl

theorem BrokenMember.member_eq_malformed {source : Text} (broken : BrokenMember source)
    (given : Overrides) : member given source = .error .malformed := by
  cases broken with
  | other isKey isOther breaksOff joined =>
      obtain ⟨space, isSpace, memberRead⟩ :=
        exists_member_append_of_key isKey (usable_of_forall_ne isOther given)
      rw [joined, memberRead, ofKey?_eq_none isOther, memberBody, breaksOff.skip_append isSpace]
      rfl

theorem Member.cases_of_cut {entry : List (Field × Text)} {source part : Text}
    (isMember : Member entry source) {given : Overrides} (fresh : given.Fresh entry)
    (cut : Cut part source) :
    BrokenMember part ∨ Member entry part ∨ member given part = .error .unfinished := by
  cases isMember with
  | @field field value key string _ isKey isString joined =>
      have usable := usable_key (Overrides.fresh_cons_iff.mp fresh).1
      rw [joined] at cut
      rcases cut_append_iff.mp cut with within | ⟨rest, rfl, cutRest⟩
      · exact .inr (.inr (member_of_cut_key isKey usable within))
      · obtain ⟨space, isSpace, memberRead⟩ := exists_member_append_of_key isKey usable
        rcases isString.cases_of_cut cutRest isSpace with isString | refused
        · exact .inr (.inl (.field isKey isString rfl))
        · refine .inr (.inr ?_)
          rw [memberRead, Field.ofKey?_key, memberBody, refused]
          rfl
  | @other name key value tail _ isKey isOther isValue tailSpace joined =>
      have usable := usable_of_forall_ne isOther given
      rw [joined] at cut
      rcases cut_append_iff.mp cut with within | ⟨rest, rfl, cutRest⟩
      · exact .inr (.inr (member_of_cut_key isKey usable within))
      · obtain ⟨space, isSpace, memberRead⟩ := exists_member_append_of_key isKey usable
        rcases cut_append_iff.mp cutRest with within | ⟨last, rfl, cutLast⟩
        · rcases isValue.cases_of_cut within isSpace with breaksOff | isValue | refused
          · exact .inl (.other isKey isOther breaksOff rfl)
          · exact .inr (.inl (.other isKey isOther isValue space_nil (by simp)))
          · refine .inr (.inr ?_)
            rw [memberRead, ofKey?_eq_none isOther, memberBody, refused]
            rfl
        · exact .inr (.inl (.other isKey isOther isValue (tailSpace.of_cut cutLast) rfl))

/-! ## Objects -/

theorem members_of_ended {given middle : Overrides} {text after : Text}
    (memberRead : member given text = .ok (middle, after)) (ended : skipSpace after = []) :
    members given text = .error .unfinished := by
  rw [members]
  split
  · rename_i refused
    rw [memberRead] at refused
    cases refused
  · rename_i accepted
    rw [memberRead] at accepted
    cases accepted
    split
    · rfl
    · rename_i start
      rw [ended] at start
      cases start

theorem Member.members_eq_unfinished {entry : List (Field × Text)} {source : Text}
    (isMember : Member entry source) {given : Overrides} (fresh : given.Fresh entry) :
    members given source = .error .unfinished := by
  obtain ⟨space, isSpace, memberRead⟩ := isMember.exists_member_append fresh
  have whole := memberRead [] nofun
  simp only [List.append_nil] at whole
  exact members_of_ended whole (skipSpace_eq_nil_iff.mpr isSpace)

theorem BrokenMembers.members_eq_malformed {given : Overrides} {source : Text}
    (broken : BrokenMembers given source) : members given source = .error .malformed := by
  cases broken with
  | behind leading fresh broken joined =>
      rw [joined, members_leading_append leading fresh]
      exact members_of_error (broken.member_eq_malformed _)

theorem BrokenMembers.cons {given : Overrides} {entry : List (Field × Text)} {first later : Text}
    (isMember : Member entry first) (fresh : given.Fresh entry)
    (broken : BrokenMembers (given.setAll entry) later) :
    BrokenMembers given (first ++ ',' :: later) := by
  cases broken with
  | behind leading freshLater broken joined =>
      have freshAll := Overrides.fresh_append_iff.mpr ⟨fresh, freshLater⟩
      exact .behind (.cons isMember leading rfl) freshAll broken (by simp [joined])

theorem Member.members_of_cut {entry : List (Field × Text)} {source part : Text}
    (isMember : Member entry source) {given : Overrides} (fresh : given.Fresh entry)
    (cut : Cut part source) :
    BrokenMembers given part ∨ Settings.members given part = .error .unfinished := by
  rcases isMember.cases_of_cut fresh cut with broken | isMember | refused
  · exact .inl (.behind .nil (Overrides.fresh_nil given) broken rfl)
  · exact .inr (isMember.members_eq_unfinished fresh)
  · exact .inr (members_of_error refused)

theorem Separated.members_of_cut {entries : List (List (Field × Text))} {source part : Text}
    (separated : Separated Member entries source) {given : Overrides}
    (fresh : given.Fresh entries.flatten) (cut : Cut part (source ++ ['\x7d'])) :
    BrokenMembers given part ∨ members given part = .error .unfinished := by
  induction separated generalizing given part with
  | last isMember =>
      simp only [List.flatten_cons, List.flatten_nil, List.append_nil] at fresh
      rcases cut_append_iff.mp cut with within | ⟨rest, rfl, cutRest⟩
      · exact isMember.members_of_cut fresh within
      · rw [cut_singleton_iff.mp cutRest, List.append_nil]
        exact .inr (isMember.members_eq_unfinished fresh)
  | @more entry entries first later source isMember separated joined ih =>
      obtain ⟨freshHere, freshLater⟩ := Overrides.fresh_append_iff.mp fresh
      rw [joined, List.append_assoc] at cut
      rcases cut_append_iff.mp cut with within | ⟨rest, rfl, cutRest⟩
      · exact isMember.members_of_cut freshHere within
      · rcases cut_cons_iff.mp cutRest with rfl | ⟨last, rfl, cutLast⟩
        · rw [List.append_nil]
          exact .inr (isMember.members_eq_unfinished freshHere)
        · rcases ih freshLater cutLast with broken | refused
          · exact .inl (.cons isMember freshHere broken)
          · obtain ⟨space, isSpace, memberRead⟩ := isMember.exists_member_append freshHere
            refine .inr ?_
            rw [members_of_comma (memberRead _ (endsNumber_comma last))
              (isSpace.skipSpace_append_cons rfl last), refused]

/-- Before the first quote there is only white space, whatever else is cut off. -/
theorem space_or_quote_of_cut {part whole : Text} (cut : Cut part whole)
    (quote : ∃ later, skipSpace whole = '"' :: later) :
    Space part ∨ ∃ later, skipSpace part = '"' :: later := by
  obtain ⟨later, start⟩ := quote
  rcases skipSpace_of_cut cut start with none | ⟨after, partStart⟩
  · exact .inl (skipSpace_eq_nil_iff.mp none)
  · exact .inr ⟨after, partStart⟩

theorem object_of_space {space : Text} (isSpace : Space space) :
    object space = .error .unfinished := by
  rw [object, skipSpace_eq_nil_iff.mpr isSpace]
  exact members_of_error rfl

theorem object_of_cut {entries : List (List (Field × Text))} {source part : Text}
    (listing : Listing Member entries source) (once : (entries.flatten.map Prod.fst).Nodup)
    (cut : Cut part (source ++ ['\x7d'])) :
    BrokenMembers Overrides.none part ∨ object part = .error .unfinished := by
  cases listing with
  | empty space => exact .inr (object_of_space (space.of_cut_concat cut))
  | filled separated =>
      have quote := separated.exists_skipSpace_eq_cons
        (fun isMember => isMember.exists_skipSpace_eq_cons) ['\x7d']
      rcases space_or_quote_of_cut cut quote with isSpace | ⟨later, start⟩
      · exact .inr (object_of_space isSpace)
      · rw [object_eq_members start]
        exact separated.members_of_cut (Overrides.fresh_none once) cut

theorem BrokenMembers.exists_skipSpace_eq_cons {given : Overrides} {source : Text}
    (broken : BrokenMembers given source) : ∃ later, skipSpace source = '"' :: later := by
  cases broken with
  | behind leading _ broken joined =>
      rw [joined]
      apply leading.exists_skipSpace_eq_cons
      cases broken with
      | other isKey _ _ joined =>
          rw [joined]
          exact isKey.exists_skipSpace_eq_cons _

/-! ## Arrays -/

theorem laterElements_of_space (fields : List Field) (given : Overrides) {space : Text}
    (isSpace : Space space) : laterElements fields given space = .error .unfinished := by
  cases fields with
  | nil =>
      rw [laterElements, isSpace.mark]
      rfl
  | cons field later =>
      rw [laterElements, skipSpace_eq_nil_iff.mpr isSpace]

theorem laterElements_of_comma {field : Field} {later : List Field} {given : Overrides}
    {text rest : Text} (comma : skipSpace text = ',' :: rest) :
    laterElements (field :: later) given text = elements (field :: later) given rest := by
  rw [laterElements, comma]
  rfl

theorem StringSource.elements_eq_unfinished {value source : Text}
    (string : StringSource value source) (field : Field) (later : List Field) (given : Overrides) :
    elements (field :: later) given source = .error .unfinished := by
  obtain ⟨space, isSpace, valueRead⟩ := string.exists_fieldValue_append
  have whole := valueRead []
  simp only [List.append_nil] at whole
  simp only [Settings.elements, whole, bind, Except.bind]
  exact laterElements_of_space later _ isSpace

theorem StringSource.elements_of_cut {value source part : Text} (string : StringSource value source)
    (field : Field) (later : List Field) (given : Overrides) (cut : Cut part source) :
    Settings.elements (field :: later) given part = .error .unfinished := by
  rcases string.cases_of_cut cut space_nil with string | refused
  · exact string.elements_eq_unfinished field later given
  · simp only [List.nil_append] at refused
    simp only [Settings.elements, refused, bind, Except.bind]

theorem Separated.elements_of_cut {values : List Text} {source part : Text}
    (separated : Separated StringSource values source) {fields : List Field}
    (few : values.length ≤ fields.length) (given : Overrides) (cut : Cut part (source ++ [']'])) :
    elements fields given part = .error .unfinished := by
  induction separated generalizing fields given part with
  | last string =>
      cases fields with
      | nil => cases few
      | cons field later =>
          rcases cut_append_iff.mp cut with within | ⟨rest, rfl, cutRest⟩
          · exact string.elements_of_cut field later given within
          · rw [cut_singleton_iff.mp cutRest, List.append_nil]
            exact string.elements_eq_unfinished field later given
  | @more value values first behind source string separated joined ih =>
      cases fields with
      | nil => cases few
      | cons field later =>
          rw [joined, List.append_assoc] at cut
          rcases cut_append_iff.mp cut with within | ⟨rest, rfl, cutRest⟩
          · exact string.elements_of_cut field later given within
          · rcases cut_cons_iff.mp cutRest with rfl | ⟨last, rfl, cutLast⟩
            · rw [List.append_nil]
              exact string.elements_eq_unfinished field later given
            · obtain ⟨space, isSpace, valueRead⟩ := string.exists_fieldValue_append
              have refused := ih (Nat.le_of_succ_le_succ few) (given.set field value) cutLast
              simp only [Settings.elements, valueRead, bind, Except.bind]
              cases later with
              | nil =>
                  -- Behind the comma stands another value, and no field is left for it.
                  cases separated with
                  | last _ => simp at few
                  | more _ _ _ => simp at few
              | cons next later =>
                  rw [laterElements_of_comma (isSpace.skipSpace_append_cons rfl last), refused]

theorem array_of_space {space : Text} (isSpace : Space space) :
    array space = .error .unfinished := by
  rw [array, skipSpace_eq_nil_iff.mpr isSpace]
  rfl

theorem array_of_cut {values : List Text} {source part : Text}
    (listing : Listing StringSource values source) (few : values.length ≤ Field.all.length)
    (cut : Cut part (source ++ [']'])) : array part = .error .unfinished := by
  cases listing with
  | empty space => exact array_of_space (space.of_cut_concat cut)
  | filled separated =>
      have quote := separated.exists_skipSpace_eq_cons
        (fun isString => isString.exists_skipSpace_eq_cons) [']']
      rcases space_or_quote_of_cut cut quote with isSpace | ⟨later, start⟩
      · exact array_of_space isSpace
      · have refused := separated.elements_of_cut few Overrides.none cut
        rw [← elements_skipSpace, start] at refused
        rw [array, start]
        exact refused

/-! ## Documents -/

theorem overrides_of_space {space : Text} (isSpace : Space space) :
    overrides space = .error .unfinished := by
  rw [overrides, skipSpace_eq_nil_iff.mpr isSpace]
  rfl

theorem ofDocument_of_error {text : Text} {fault : Fault}
    (refused : overrides text = .error fault) : ofDocument text = .error fault := by
  rw [ofDocument, refused]
  rfl

theorem BrokenDocument.ofDocument_eq_malformed {source : Text} (broken : BrokenDocument source) :
    ofDocument source = .error .malformed := by
  cases broken with
  | opened leadSpace broken joined =>
      obtain ⟨later, quote⟩ := broken.exists_skipSpace_eq_cons
      apply ofDocument_of_error
      rw [joined, overrides, leadSpace.skipSpace_append_cons rfl _]
      exact (object_eq_members quote).trans broken.members_eq_malformed

theorem Gives.cases_of_cut {given : List (Field × Text)} {value part : Text}
    (gives : Gives given value) (cut : Cut part value) {lead : Text} (leadSpace : Space lead) :
    BrokenDocument (lead ++ part) ∨ overrides (lead ++ part) = .error .unfinished := by
  cases gives with
  | object listing once joined =>
      rw [joined] at cut
      rcases cut_cons_iff.mp cut with rfl | ⟨rest, rfl, cutRest⟩
      · rw [List.append_nil]
        exact .inr (overrides_of_space leadSpace)
      · rcases object_of_cut listing once cutRest with broken | refused
        · exact .inl (.opened leadSpace broken rfl)
        · rw [overrides, leadSpace.skipSpace_append_cons rfl _]
          exact .inr refused
  | array listing few joined =>
      rw [joined] at cut
      rcases cut_cons_iff.mp cut with rfl | ⟨rest, rfl, cutRest⟩
      · rw [List.append_nil]
        exact .inr (overrides_of_space leadSpace)
      · rw [overrides, leadSpace.skipSpace_append_cons rfl _]
        exact .inr (array_of_cut listing few cutRest)

theorem Document.cases_of_cut {given : List (Field × Text)} {source part : Text}
    (document : Document given source) (cut : Cut part source) :
    BrokenDocument part ∨ Document given part ∨ ofDocument part = .error .unfinished := by
  cases document with
  | around leadSpace gives tailSpace joined =>
      rw [joined] at cut
      rcases cut_append_iff.mp cut with within | ⟨rest, rfl, cutRest⟩
      · exact .inr (.inr (ofDocument_of_error (overrides_of_space (leadSpace.of_cut within))))
      · rcases cut_append_iff.mp cutRest with within | ⟨last, rfl, cutLast⟩
        · rcases gives.cases_of_cut within leadSpace with broken | refused
          · exact .inl broken
          · exact .inr (.inr (ofDocument_of_error refused))
        · exact .inr (.inl (.around leadSpace gives (tailSpace.of_cut cutLast) rfl))

/-- What follows a document has no say in the settings. -/
theorem Document.of_append {given : List (Field × Text)} {source rest : Text} {settings : Settings}
    (document : Document given source) (read : ofDocument (source ++ rest) = .ok settings) :
    ofDocument source = .ok settings ∧ Space rest := by
  have isDocument := document
  cases document with
  | @around lead value tail _ leadSpace gives tailSpace joined =>
      have overridesRead := gives.overrides_append leadSpace (tail ++ rest)
      simp only [joined, List.append_assoc] at read
      rw [ofDocument, overridesRead] at read
      simp only [bind, Except.bind, tailSpace.skipSpace_append] at read
      split at read
      · rename_i ended
        cases read
        have overlays := (apply_setAll_eq_iff gives.nodup).mp rfl
        exact ⟨ofDocument_eq_ok_iff.mpr ⟨given, isDocument, overlays⟩,
          skipSpace_eq_nil_iff.mp (List.isEmpty_iff.mp ended)⟩
      · cases read

theorem ofDocument_of_append {part missing : Text} {settings : Settings}
    (read : ofDocument (part ++ missing) = .ok settings) :
    (ofDocument part = .ok settings ∧ Space missing) ∨
      (ofDocument part = .error .unfinished ∧ ¬ BrokenDocument part) ∨
      (ofDocument part = .error .malformed ∧ BrokenDocument part) := by
  obtain ⟨given, document, _⟩ := ofDocument_eq_ok_iff.mp read
  by_cases empty : missing = []
  · subst empty
    rw [List.append_nil] at read
    exact .inl ⟨read, space_nil⟩
  · rcases document.cases_of_cut ⟨missing, empty, rfl⟩ with broken | partDocument | refused
    · exact .inr (.inr ⟨broken.ofDocument_eq_malformed, broken⟩)
    · exact .inl (partDocument.of_append read)
    · refine .inr (.inl ⟨refused, ?_⟩)
      intro broken
      rw [broken.ofDocument_eq_malformed] at refused
      cases refused

/-- What is left of a settings file that is accepted gives the same settings if only white space is
missing. Otherwise it is unfinished, or it is malformed as it ends in a member without a field in a
number that needs another digit. Every other refusal but for the end of the text is thus final. -/
theorem ofFile_of_append {whole part : Files.FileSystem} {path other text missing : Text}
    (wholeRead : whole.readText path = .ok (text ++ missing))
    (partRead : part.readText other = .ok text) :
    (∀ settings, ofFile whole path = .ok settings →
      (ofFile part other = .ok settings ∧ Space missing) ∨
        (ofFile part other = .error (.invalid other .unfinished) ∧ ¬ BrokenDocument text) ∨
        (ofFile part other = .error (.invalid other .malformed) ∧ BrokenDocument text)) ∧
    ∀ fault, ofFile part other = .error (.invalid other fault) → fault ≠ .unfinished →
      ¬ BrokenDocument text → ∀ settings, ofFile whole path ≠ .ok settings := by
  have cases_of_ok : ∀ settings, ofFile whole path = .ok settings →
      (ofFile part other = .ok settings ∧ Space missing) ∨
        (ofFile part other = .error (.invalid other .unfinished) ∧ ¬ BrokenDocument text) ∨
        (ofFile part other = .error (.invalid other .malformed) ∧ BrokenDocument text) := by
    intro settings accepted
    obtain ⟨found, foundRead, read⟩ := ofFile_eq_ok_iff_ofDocument.mp accepted
    rw [wholeRead] at foundRead
    cases foundRead
    rcases ofDocument_of_append read with ⟨same, space⟩ | ⟨refused, notBroken⟩ | ⟨refused, broken⟩
    · exact .inl ⟨ofFile_eq_ok_iff_ofDocument.mpr ⟨text, partRead, same⟩, space⟩
    · exact .inr (.inl ⟨ofFile_eq_invalid partRead refused, notBroken⟩)
    · exact .inr (.inr ⟨ofFile_eq_invalid partRead refused, broken⟩)
  refine ⟨cases_of_ok, ?_⟩
  intro fault refused notEnded notBroken settings accepted
  rcases cases_of_ok settings accepted with ⟨same, _⟩ | ⟨ended, _⟩ | ⟨_, broken⟩
  · rw [refused] at same
    cases same
  · rw [refused] at ended
    cases ended
    exact notEnded rfl
  · exact notBroken broken

theorem ofFile_of_append_exponent :
    let text := "\x7b\"x\":[-1.5e".toList
    let missing := "3]\x7d".toList
    let whole : Files.FileSystem :=
      ⟨[(["c".toList, ['w']], .file (Files.FileSystem.bytesOf (text ++ missing)))], [['w']]⟩
    let part : Files.FileSystem :=
      ⟨[(["c".toList, ['w']], .file (Files.FileSystem.bytesOf text))], [['w']]⟩
    ofFile whole "c".toList = .ok defaults ∧
      ofFile part "c".toList = .error (.invalid "c".toList .malformed) ∧ BrokenDocument text := by
  intro text missing whole part
  have name : Spelling .strict ['x'] ['x'] := spelling_iff.mpr (by decide +kernel)
  have key : KeySource .strict ['x'] "\"x\":".toList :=
    .spelled space_nil name space_nil space_nil rfl
  have other : ∀ field : Field, field.key ≠ ['x'] := by rintro ⟨⟩ <;> decide
  have one : IsWhole ['1'] := ⟨by decide, by decide⟩
  have half : IsFraction ".5".toList := .point (by decide)
  have power : IsExponent "e3".toList := .power (.inl rfl) (.inl rfl) (by decide)
  have number : IsScalar "-1.5e3".toList := .negative (.parts one half power rfl)
  have list : IsValue "[-1.5e3]".toList :=
    .filled (.last (.element space_nil) (.scalar number) space_nil rfl) rfl
  have isMember : Member [] "\"x\":[-1.5e3]".toList := .other key other list space_nil rfl
  have document : Document [] (text ++ missing) :=
    .around space_nil (.object (.filled (.last isMember)) .nil rfl) space_nil rfl
  have broken : BrokenNumber "-1.5e".toList := .negative (.power one half (.inl rfl) (.inl rfl))
  have breaksOff : BreaksOff .value "[-1.5e".toList :=
    .inside (.here (.element space_nil) (.number broken) rfl) rfl
  have brokenMember : BrokenMember "\"x\":[-1.5e".toList := .other key other breaksOff rfl
  have brokenDocument : BrokenDocument text :=
    .opened space_nil (.behind .nil (Overrides.fresh_nil _) brokenMember rfl) rfl
  have wholeRead : whole.readText "c".toList = .ok (text ++ missing) := by decide +kernel
  have partRead : part.readText "c".toList = .ok text := by decide +kernel
  have accepted : ofFile whole "c".toList = .ok defaults :=
    ofFile_eq_ok_iff_ofDocument.mpr ⟨_, wholeRead,
      ofDocument_eq_ok_iff.mpr ⟨[], document, fun field => rfl⟩⟩
  rcases (ofFile_of_append wholeRead partRead).1 defaults accepted with
    ⟨_, space⟩ | ⟨_, notBroken⟩ | ⟨refused, _⟩
  · exact absurd space (by decide)
  · exact absurd brokenDocument notBroken
  · exact ⟨accepted, refused, brokenDocument⟩

end ScopedCss.Settings
