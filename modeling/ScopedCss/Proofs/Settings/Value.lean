import ScopedCss.Proofs.Json.Value
import ScopedCss.Proofs.Settings.Overrides
import ScopedCss.Settings.Document

set_option autoImplicit false

/-!
# Values that give fields

The grammar of settings is narrower than that of JSON where a field is given, and as wide as that of
JSON elsewhere. `overrides` reads what it derives and nothing else, and gives each field that it
finds.
-/

namespace ScopedCss.Settings

open Json

/-! ## The grammar -/

/-- A string in its quotes, and white space around it. -/
inductive StringSource (value : Text) : Text → Prop where
  | spelled {lead spelled tail source : Text} (leadSpace : Space lead)
      (spelling : Spelling .strict value spelled) (tailSpace : Space tail)
      (joined : source = lead ++ '"' :: (spelled ++ '"' :: tail)) : StringSource value source

/-- A member of an object, with what it gives: a field its value, or nothing under any other key. -/
inductive Member : List (Field × Text) → Text → Prop where
  | field {field : Field} {value key string source : Text} (isKey : KeySource .strict field.key key)
      (isString : StringSource value string) (joined : source = key ++ string) :
      Member [(field, value)] source
  | other {name key value tail source : Text} (isKey : KeySource .strict name key)
      (isOther : ∀ field : Field, field.key ≠ name) (isValue : IsValue value) (space : Space tail)
      (joined : source = key ++ (value ++ tail)) : Member [] source

/-- One or more items with commas between them. -/
inductive Separated {α : Type} (Item : α → Text → Prop) : List α → Text → Prop where
  | last {item : α} {source : Text} (isItem : Item item source) : Separated Item [item] source
  | more {item : α} {items : List α} {first later source : Text} (isItem : Item item first)
      (areItems : Separated Item items later) (joined : source = first ++ ',' :: later) :
      Separated Item (item :: items) source

/-- What stands in brackets: nothing, or items with commas between them. -/
inductive Listing {α : Type} (Item : α → Text → Prop) : List α → Text → Prop where
  | empty {source : Text} (space : Space source) : Listing Item [] source
  | filled {items : List α} {source : Text} (separated : Separated Item items source) :
      Listing Item items source

/-- The values that a document may hold, with the fields that they give. -/
inductive Gives : List (Field × Text) → Text → Prop where
  | object {members : List (List (Field × Text))} {inner source : Text}
      (listing : Listing Member members inner) (once : (members.flatten.map Prod.fst).Nodup)
      (joined : source = '\x7b' :: (inner ++ ['\x7d'])) : Gives members.flatten source
  | array {values : List Text} {inner source : Text} (listing : Listing StringSource values inner)
      (few : values.length ≤ Field.all.length) (joined : source = '[' :: (inner ++ [']'])) :
      Gives (Field.all.zip values) source

/-! ## Strings as values of fields -/

theorem StringSource.append {value source space : Text} (string : StringSource value source)
    (isSpace : Space space) : StringSource value (source ++ space) := by
  cases string with
  | spelled leadSpace spelling tailSpace joined =>
      exact .spelled leadSpace spelling (tailSpace.append isSpace) (by simp [joined])

theorem StringSource.exists_skipSpace_eq_cons {value source : Text}
    (string : StringSource value source) (rest : Text) :
    ∃ later, skipSpace (source ++ rest) = '"' :: later := by
  cases string with
  | spelled leadSpace spelling tailSpace joined =>
      subst joined
      simp only [List.append_assoc, List.cons_append]
      exact ⟨_, leadSpace.skipSpace_append_cons rfl _⟩

theorem fieldValue_skipSpace (text : Text) : fieldValue (skipSpace text) = fieldValue text := by
  rw [fieldValue, skipSpace_skipSpace, fieldValue]

theorem fieldValue_sound {text value rest : Text} (read : fieldValue text = .ok (value, rest)) :
    ∃ source, StringSource value source ∧ text = source ++ rest := by
  unfold fieldValue at read
  split at read
  · rename_i start
    obtain ⟨lead, space, rfl⟩ := exists_space_of_skipSpace_eq start
    obtain ⟨spelled, spelling, rfl⟩ := quoted_eq_ok_iff.mp read
    exact ⟨_, .spelled space spelling space_nil rfl, by simp⟩
  · cases read
  · cases read
  · obtain ⟨_, _, thrown⟩ := bind_ok read
    cases thrown

theorem StringSource.exists_fieldValue_append {value source : Text}
    (string : StringSource value source) :
    ∃ space, Space space ∧ ∀ rest, fieldValue (source ++ rest) = .ok (value, space ++ rest) := by
  cases string with
  | @spelled lead spelled tail _ leadSpace spelling tailSpace joined =>
      refine ⟨tail, tailSpace, ?_⟩
      intro rest
      have start : skipSpace (source ++ rest) = '"' :: (spelled ++ '"' :: (tail ++ rest)) := by
        simp only [joined, List.append_assoc, List.cons_append]
        exact leadSpace.skipSpace_append_cons rfl _
      rw [fieldValue, start]
      exact quoted_eq_ok_iff.mpr ⟨spelled, spelling, rfl⟩

/-! ## Members -/

theorem ofKey?_eq_none {name : Text} (isOther : ∀ field : Field, field.key ≠ name) :
    Field.ofKey? name = none := by
  rw [Option.eq_none_iff_forall_ne_some]
  intro field found
  exact isOther field (Field.ofKey?_eq_some_iff.mp found)

theorem member_eq_ok_iff {given found : Overrides} {text rest : Text} :
    member given text = .ok (found, rest) ↔
      ∃ name after, key .strict text = .ok (name, after) ∧
        ((∃ field value, field.key = name ∧ given.get? field = none ∧
            fieldValue after = .ok (value, rest) ∧ found = given.set field value) ∨
          ((∀ field : Field, field.key ≠ name) ∧ skip after = .ok rest ∧ found = given)) := by
  constructor
  · intro read
    obtain ⟨afterQuote, quoteRead, read⟩ := bind_ok read
    obtain ⟨⟨name, afterName⟩, nameRead, read⟩ := bind_ok read
    have keyRead (after : Text) (colonRead : mark ':' afterName = .ok after) :
        key .strict text = .ok (name, after) := by
      simp [key, quoteRead, nameRead, colonRead, bind, Except.bind, pure, Except.pure]
    cases known : Field.ofKey? name with
    | some field =>
        simp only [memberValue, known] at read
        split at read
        · cases read
        · rename_i absent
          obtain ⟨after, colonRead, read⟩ := bind_ok read
          obtain ⟨⟨value, afterValue⟩, valueRead, kept⟩ := bind_ok read
          cases kept
          exact ⟨name, after, keyRead after colonRead, .inl ⟨field, value,
            Field.ofKey?_eq_some_iff.mp known, by simpa using absent, valueRead, rfl⟩⟩
    | none =>
        simp only [memberValue, known] at read
        obtain ⟨after, colonRead, read⟩ := bind_ok read
        obtain ⟨afterValue, skipped, kept⟩ := bind_ok read
        cases kept
        refine ⟨name, after, keyRead after colonRead, .inr ⟨?_, skipped, rfl⟩⟩
        intro field same
        rw [Field.ofKey?_eq_some_iff.mpr same] at known
        cases known
  · rintro ⟨name, after, keyRead, choice⟩
    obtain ⟨afterQuote, quoteRead, read⟩ := bind_ok keyRead
    obtain ⟨⟨_, afterName⟩, nameRead, read⟩ := bind_ok read
    obtain ⟨_, colonRead, kept⟩ := bind_ok read
    cases kept
    rcases choice with ⟨field, value, rfl, absent, valueRead, rfl⟩ | ⟨unknown, skipped, rfl⟩
    · simp [member, memberValue, quoteRead, nameRead, colonRead, Field.ofKey?_key, absent, valueRead,
        bind, Except.bind, pure, Except.pure]
    · simp [member, memberValue, quoteRead, nameRead, colonRead, ofKey?_eq_none unknown, skipped, bind,
        Except.bind, pure, Except.pure]

theorem member_skipSpace (given : Overrides) (text : Text) :
    member given (skipSpace text) = member given text := by
  simp only [member, mark_skipSpace]

theorem Member.append {entry : List (Field × Text)} {source space : Text}
    (isMember : Member entry source) (isSpace : Space space) : Member entry (source ++ space) := by
  cases isMember with
  | field isKey isString joined =>
      exact .field isKey (isString.append isSpace) (by simp [joined])
  | other isKey isOther isValue tailSpace joined =>
      exact .other isKey isOther isValue (tailSpace.append isSpace) (by simp [joined])

theorem member_sound {given found : Overrides} {text rest : Text}
    (read : member given text = .ok (found, rest)) :
    ∃ entry source, Member entry source ∧ text = source ++ rest ∧ given.Fresh entry ∧
      found = given.setAll entry := by
  obtain ⟨name, after, keyRead, choice⟩ := member_eq_ok_iff.mp read
  obtain ⟨key, keySource, rfl⟩ := key_sound keyRead
  rcases choice with ⟨field, value, rfl, absent, valueRead, rfl⟩ | ⟨unknown, skipped, rfl⟩
  · obtain ⟨string, isString, rfl⟩ := fieldValue_sound valueRead
    have fresh := Overrides.fresh_cons_iff.mpr ⟨absent, Overrides.fresh_nil (given.set field value)⟩
    exact ⟨_, _, .field keySource isString rfl, by simp, fresh, rfl⟩
  · obtain ⟨lead, value, space, isValue, rfl⟩ := skip_sound skipped
    exact ⟨[], _, .other (keySource.append space) unknown isValue space_nil rfl, by simp,
      Overrides.fresh_nil found, rfl⟩

theorem Member.exists_member_append {entry : List (Field × Text)} {source : Text}
    (isMember : Member entry source) {given : Overrides} (fresh : given.Fresh entry) :
    ∃ space, Space space ∧ ∀ rest, EndsNumber rest →
      member given (source ++ rest) = .ok (given.setAll entry, space ++ rest) := by
  cases isMember with
  | @field field value key string _ isKey isString joined =>
      obtain ⟨keySpace, isKeySpace, keyRead⟩ := isKey.exists_key_append
      obtain ⟨space, isSpace, valueRead⟩ := isString.exists_fieldValue_append
      refine ⟨space, isSpace, ?_⟩
      intro rest _
      -- The space that the key leaves behind the colon is skipped together with that of the string.
      have here : fieldValue (keySpace ++ (string ++ rest)) = .ok (value, space ++ rest) := by
        rw [← fieldValue_skipSpace, isKeySpace.skipSpace_append, fieldValue_skipSpace, valueRead]
      refine member_eq_ok_iff.mpr ⟨field.key, keySpace ++ (string ++ rest), ?_, .inl ⟨field, value,
        rfl, (Overrides.fresh_cons_iff.mp fresh).1, here, rfl⟩⟩
      rw [joined, List.append_assoc, keyRead]
  | @other name key value tail _ isKey isOther isValue space joined =>
      obtain ⟨keySpace, isKeySpace, keyRead⟩ := isKey.exists_key_append
      refine ⟨tail, space, ?_⟩
      intro rest ends
      have skipped := isValue.skip_append isKeySpace (space.endsNumber_append ends)
      refine member_eq_ok_iff.mpr ⟨name, _, ?_, .inr ⟨isOther, skipped, rfl⟩⟩
      rw [joined, List.append_assoc, List.append_assoc, keyRead]

theorem Member.exists_skipSpace_eq_cons {entry : List (Field × Text)} {source : Text}
    (isMember : Member entry source) (rest : Text) :
    ∃ later, skipSpace (source ++ rest) = '"' :: later := by
  cases isMember with
  | field isKey _ joined =>
      rw [joined, List.append_assoc]
      exact isKey.exists_skipSpace_eq_cons _
  | other isKey _ _ _ joined =>
      rw [joined, List.append_assoc]
      exact isKey.exists_skipSpace_eq_cons _

/-! ## Objects -/

theorem members_eq_ok_iff {given found : Overrides} {text rest : Text} :
    members given text = .ok (found, rest) ↔
      ∃ middle after, member given text = .ok (middle, after) ∧
        ((skipSpace after = '\x7d' :: rest ∧ found = middle) ∨
          ∃ later, skipSpace after = ',' :: later ∧ members middle later = .ok (found, rest)) := by
  rw [members]
  split
  · rename_i refused
    simp [refused]
  · rename_i middle after accepted
    simp only [accepted, Except.ok.injEq, Prod.mk.injEq, ↓existsAndEq, and_true, true_and]
    split
    · rename_i ended
      simp [ended]
    · rename_i character later next
      by_cases closing : character = '\x7d'
      · simp [next, closing, and_comm, eq_comm]
      · by_cases comma : character = ','
        · simp [next, comma]
        · simp [next, closing, comma]

theorem members_sound {given found : Overrides} {text rest : Text}
    (read : members given text = .ok (found, rest)) :
    ∃ entries source, Separated Member entries source ∧ text = source ++ '\x7d' :: rest ∧
      given.Fresh entries.flatten ∧ found = given.setAll entries.flatten := by
  obtain ⟨middle, after, memberRead, ending⟩ := members_eq_ok_iff.mp read
  obtain ⟨entry, source, isMember, joined, fresh, rfl⟩ := member_sound memberRead
  rcases ending with ⟨closing, rfl⟩ | ⟨later, comma, laterRead⟩
  · obtain ⟨tail, space, rfl⟩ := exists_space_of_skipSpace_eq closing
    exact ⟨[entry], _, .last (isMember.append space), by simp [joined], by simpa using fresh,
      by simp⟩
  · obtain ⟨tail, space, rfl⟩ := exists_space_of_skipSpace_eq comma
    obtain ⟨entries, laterSource, separated, rfl, freshLater, rfl⟩ := members_sound laterRead
    refine ⟨entry :: entries, _, .more (isMember.append space) separated rfl, by simp [joined], ?_, ?_⟩
    · rw [List.flatten_cons, Overrides.fresh_append_iff]
      exact ⟨fresh, freshLater⟩
    · rw [List.flatten_cons, Overrides.setAll_append]
termination_by text.length
decreasing_by
  have shorter := member_length_lt memberRead
  simp only [List.length_append, List.length_cons] at shorter
  omega

theorem members_append {entries : List (List (Field × Text))} {source : Text}
    (separated : Separated Member entries source) {given : Overrides}
    (fresh : given.Fresh entries.flatten) (rest : Text) :
    members given (source ++ '\x7d' :: rest) = .ok (given.setAll entries.flatten, rest) := by
  induction separated generalizing given with
  | last isMember =>
      simp only [List.flatten_cons, List.flatten_nil, List.append_nil] at fresh ⊢
      obtain ⟨space, isSpace, memberRead⟩ := isMember.exists_member_append fresh
      exact members_eq_ok_iff.mpr ⟨_, _, memberRead _ (endsNumber_closing .object rest),
        .inl ⟨isSpace.skipSpace_append_cons rfl rest, rfl⟩⟩
  | @more entry entries first later source isMember separated joined ih =>
      simp only [joined, List.append_assoc, List.cons_append]
      obtain ⟨freshHere, freshLater⟩ := Overrides.fresh_append_iff.mp fresh
      obtain ⟨space, isSpace, memberRead⟩ := isMember.exists_member_append freshHere
      have laterRead := ih freshLater
      rw [← Overrides.setAll_append] at laterRead
      exact members_eq_ok_iff.mpr ⟨_, _, memberRead _ (endsNumber_comma _),
        .inr ⟨_, isSpace.skipSpace_append_cons rfl _, laterRead⟩⟩

theorem members_skipSpace (given : Overrides) (text : Text) :
    members given (skipSpace text) = members given text := by
  rw [members, member_skipSpace, members]

theorem object_sound {text rest : Text} {found : Overrides}
    (read : object text = .ok (found, rest)) :
    ∃ entries source, Listing Member entries source ∧ text = source ++ '\x7d' :: rest ∧
      (entries.flatten.map Prod.fst).Nodup ∧ found = Overrides.none.setAll entries.flatten := by
  unfold object at read
  split at read
  · rename_i start
    cases read
    obtain ⟨blank, space, joined⟩ := exists_space_of_skipSpace_eq start
    exact ⟨[], blank, .empty space, joined, .nil, rfl⟩
  · rw [members_skipSpace] at read
    obtain ⟨entries, source, separated, joined, fresh, rfl⟩ := members_sound read
    exact ⟨entries, source, .filled separated, joined, fresh.once, rfl⟩

theorem Separated.exists_skipSpace_eq_cons {α : Type} {Item : α → Text → Prop} {items : List α}
    {source : Text} (separated : Separated Item items source)
    (quotes : ∀ {item first}, Item item first →
      ∀ rest, ∃ later, skipSpace (first ++ rest) = '"' :: later) (rest : Text) :
    ∃ later, skipSpace (source ++ rest) = '"' :: later := by
  cases separated with
  | last isItem => exact quotes isItem rest
  | more isItem _ joined =>
      rw [joined, List.append_assoc]
      exact quotes isItem _

theorem object_append {entries : List (List (Field × Text))} {source : Text}
    (listing : Listing Member entries source) (once : (entries.flatten.map Prod.fst).Nodup)
    (rest : Text) :
    object (source ++ '\x7d' :: rest) = .ok (Overrides.none.setAll entries.flatten, rest) := by
  cases listing with
  | empty space =>
      rw [object, space.skipSpace_append_cons rfl rest]
      rfl
  | filled separated =>
      obtain ⟨later, start⟩ := separated.exists_skipSpace_eq_cons
        (fun isMember => isMember.exists_skipSpace_eq_cons) ('\x7d' :: rest)
      have membersRead := members_append separated (Overrides.fresh_none once) rest
      rw [← members_skipSpace, start] at membersRead
      rw [object, start]
      exact membersRead

/-! ## Arrays -/

/-- Reads one element or more of an array that gives the listed fields, up to and with the closing
bracket. -/
def elements : List Field → Overrides → Reader Overrides
  | [], _, _ => .error .malformed
  | field :: later, given, text => do
      let (value, rest) ← fieldValue text
      laterElements later (given.set field value) rest

theorem laterElements_eq_ok_iff {fields : List Field} {given found : Overrides} {text rest : Text} :
    laterElements fields given text = .ok (found, rest) ↔
      (skipSpace text = ']' :: rest ∧ found = given) ∨
        ∃ next, skipSpace text = ',' :: next ∧ elements fields given next = .ok (found, rest) := by
  cases fields with
  | nil =>
      simp only [laterElements, elements, reduceCtorEq, and_false, exists_false, or_false]
      constructor
      · intro read
        obtain ⟨after, markRead, kept⟩ := bind_ok read
        cases kept
        exact ⟨word_eq_ok_iff.mp markRead, rfl⟩
      · rintro ⟨start, rfl⟩
        have markRead : mark ']' text = .ok rest := word_eq_ok_iff.mpr start
        simp [markRead, bind, Except.bind, pure, Except.pure]
  | cons field later =>
      rw [laterElements]
      split
      · rename_i ended
        simp [ended]
      · rename_i character after start
        by_cases closing : character = ']'
        · simp [start, closing, and_comm, eq_comm]
        · by_cases comma : character = ','
          · simp [start, comma, elements]
          · simp [start, closing, comma]

theorem elements_sound {fields : List Field} {given found : Overrides} {text rest : Text}
    (read : elements fields given text = .ok (found, rest)) :
    ∃ values source, Separated StringSource values source ∧ text = source ++ ']' :: rest ∧
      values.length ≤ fields.length ∧ found = given.setAll (fields.zip values) := by
  induction fields generalizing given text with
  | nil => cases read
  | cons field later ih =>
      obtain ⟨⟨value, after⟩, valueRead, laterRead⟩ := bind_ok read
      obtain ⟨string, isString, joined⟩ := fieldValue_sound valueRead
      rcases laterElements_eq_ok_iff.mp laterRead with ⟨closing, rfl⟩ | ⟨next, comma, nextRead⟩
      · obtain ⟨tail, space, rfl⟩ := exists_space_of_skipSpace_eq closing
        exact ⟨[value], _, .last (isString.append space), by simp [joined], by simp,
          by simp [Overrides.setAll]⟩
      · obtain ⟨tail, space, rfl⟩ := exists_space_of_skipSpace_eq comma
        obtain ⟨values, source, separated, rfl, few, rfl⟩ := ih nextRead
        exact ⟨value :: values, _, .more (isString.append space) separated rfl, by simp [joined],
          Nat.succ_le_succ few, rfl⟩

theorem elements_append {values : List Text} {source : Text}
    (separated : Separated StringSource values source) {fields : List Field}
    (few : values.length ≤ fields.length) (given : Overrides) (rest : Text) :
    elements fields given (source ++ ']' :: rest) = .ok (given.setAll (fields.zip values), rest) := by
  induction separated generalizing fields given with
  | @last value source isString =>
      cases fields with
      | nil => cases few
      | cons field later =>
          obtain ⟨space, isSpace, valueRead⟩ := isString.exists_fieldValue_append
          simp only [elements, valueRead, bind, Except.bind]
          exact laterElements_eq_ok_iff.mpr
            (.inl ⟨isSpace.skipSpace_append_cons rfl rest, by simp [Overrides.setAll]⟩)
  | @more value values first later source isString separated joined ih =>
      cases fields with
      | nil => cases few
      | cons field fields =>
          obtain ⟨space, isSpace, valueRead⟩ := isString.exists_fieldValue_append
          have laterRead := ih (Nat.le_of_succ_le_succ few) (given.set field value)
          simp only [joined, List.append_assoc, List.cons_append, elements, valueRead, bind,
            Except.bind]
          exact laterElements_eq_ok_iff.mpr
            (.inr ⟨_, isSpace.skipSpace_append_cons rfl _, laterRead⟩)

theorem elements_skipSpace (fields : List Field) (given : Overrides) (text : Text) :
    elements fields given (skipSpace text) = elements fields given text := by
  cases fields with
  | nil => rfl
  | cons field later => rw [elements, fieldValue_skipSpace, elements]

theorem array_sound {text rest : Text} {found : Overrides} (read : array text = .ok (found, rest)) :
    ∃ values source, Listing StringSource values source ∧ text = source ++ ']' :: rest ∧
      values.length ≤ Field.all.length ∧
      found = Overrides.none.setAll (Field.all.zip values) := by
  unfold array at read
  split at read
  · rename_i start
    cases read
    obtain ⟨blank, space, joined⟩ := exists_space_of_skipSpace_eq start
    exact ⟨[], blank, .empty space, joined, Nat.zero_le _, rfl⟩
  · change elements Field.all Overrides.none (skipSpace text) = .ok (found, rest) at read
    rw [elements_skipSpace] at read
    obtain ⟨values, source, separated, joined, few, rfl⟩ := elements_sound read
    exact ⟨values, source, .filled separated, joined, few, rfl⟩

theorem array_append {values : List Text} {source : Text}
    (listing : Listing StringSource values source) (few : values.length ≤ Field.all.length)
    (rest : Text) :
    array (source ++ ']' :: rest) = .ok (Overrides.none.setAll (Field.all.zip values), rest) := by
  cases listing with
  | empty space =>
      rw [array, space.skipSpace_append_cons rfl rest]
      rfl
  | filled separated =>
      obtain ⟨later, start⟩ := separated.exists_skipSpace_eq_cons
        (fun isString => isString.exists_skipSpace_eq_cons) (']' :: rest)
      have elementsRead := elements_append separated few Overrides.none rest
      rw [← elements_skipSpace, start] at elementsRead
      rw [array, start]
      exact elementsRead

/-! ## Objects and arrays -/

theorem overrides_sound {text rest : Text} {found : Overrides}
    (read : overrides text = .ok (found, rest)) :
    ∃ lead value given, Space lead ∧ Gives given value ∧ text = lead ++ (value ++ rest) ∧
      found = Overrides.none.setAll given := by
  unfold overrides at read
  split at read
  · rename_i start
    obtain ⟨lead, space, rfl⟩ := exists_space_of_skipSpace_eq start
    obtain ⟨members, source, listing, rfl, once, rfl⟩ := object_sound read
    exact ⟨lead, _, _, space, .object listing once rfl, by simp, rfl⟩
  · rename_i start
    obtain ⟨lead, space, rfl⟩ := exists_space_of_skipSpace_eq start
    obtain ⟨values, source, listing, rfl, few, rfl⟩ := array_sound read
    exact ⟨lead, _, _, space, .array listing few rfl, by simp, rfl⟩
  · obtain ⟨_, _, thrown⟩ := bind_ok read
    cases thrown

theorem Gives.overrides_append {given : List (Field × Text)} {lead value : Text}
    (gives : Gives given value) (space : Space lead) (rest : Text) :
    overrides (lead ++ (value ++ rest)) = .ok (Overrides.none.setAll given, rest) := by
  cases gives with
  | object listing once joined =>
      simp only [joined, List.cons_append, List.append_assoc, List.nil_append]
      rw [overrides, space.skipSpace_append_cons rfl _]
      exact object_append listing once rest
  | array listing few joined =>
      simp only [joined, List.cons_append, List.append_assoc, List.nil_append]
      rw [overrides, space.skipSpace_append_cons rfl _]
      exact array_append listing few rest

theorem map_fst_zip_sublist (fields : List Field) (values : List Text) :
    ((fields.zip values).map Prod.fst).Sublist fields := by
  induction fields generalizing values with
  | nil => exact .slnil
  | cons field later ih =>
      cases values with
      | nil => exact List.nil_sublist _
      | cons value values => exact (ih values).cons_cons field

theorem Gives.nodup {given : List (Field × Text)} {value : Text} (gives : Gives given value) :
    (given.map Prod.fst).Nodup := by
  cases gives with
  | object _ once _ => exact once
  | @array values _ _ _ _ _ =>
      exact (show Field.all.Nodup by decide).sublist (map_fst_zip_sublist Field.all values)

end ScopedCss.Settings
