import ScopedCss.Proofs.Settings.Value
import ScopedCss.Settings.Lookup

set_option autoImplicit false

/-!
# The first fault of a settings document

A document is read once, so what stands before a fault has to be right and what stands behind it has
no say. A second key for one field is such a fault at the end of its string, and a bracket in place
of a field's value at the bracket.
-/

namespace ScopedCss.Settings

open Json

/-! ## Objects up to a key -/

/-- Any number of items, each with a comma behind it. -/
inductive Leading {α : Type} (Item : α → Text → Prop) : List α → Text → Prop where
  | nil : Leading Item [] []
  | cons {item : α} {items : List α} {first later source : Text} (isItem : Item item first)
      (leading : Leading Item items later) (joined : source = first ++ ',' :: later) :
      Leading Item (item :: items) source

/-- An object from its start on up to the end of a member's key string, with the fields that the
members before give. -/
inductive UptoKey (name : Text) : List (Field × Text) → Text → Prop where
  | opened {members : List (List (Field × Text))} {lead inner key source : Text}
      (leadSpace : Space lead) (leading : Leading Member members inner)
      (once : (members.flatten.map Prod.fst).Nodup) (isKey : KeyString .strict name key)
      (joined : source = lead ++ '\x7b' :: (inner ++ key)) : UptoKey name members.flatten source

/-! ## Keys -/

theorem member_eq_bind (given : Overrides) (text : Text) :
    member given text =
      (mark '"' text >>= quoted .strict) >>= fun read => memberValue given read.1 read.2 := by
  unfold member
  cases mark '"' text with
  | error fault => rfl
  | ok rest => rfl

theorem member_append_of_keyString {name source : Text} (isKey : KeyString .strict name source)
    (given : Overrides) (rest : Text) :
    member given (source ++ rest) = memberValue given name rest := by
  rw [member_eq_bind, isKey.read_append]
  rfl

/-! ## Values of members -/

/-- A key under which no field is given yet. -/
def Usable (given : Overrides) (name : Text) : Prop :=
  ∀ field : Field, field.key = name → given.get? field = none

theorem usable_of_forall_ne {name : Text} (isOther : ∀ field : Field, field.key ≠ name)
    (given : Overrides) : Usable given name :=
  fun field same => absurd same (isOther field)

theorem usable_key {given : Overrides} {field : Field} (absent : given.get? field = none) :
    Usable given field.key := by
  intro other same
  have equal := Field.ofKey?_key other
  rw [same, Field.ofKey?_key] at equal
  cases equal
  exact absent

/-- Reads the value of a member, that of a field or one to skip. -/
def memberBody (given : Overrides) : Option Field → Reader Overrides
  | some field, text => fieldValue text >>= fun read => .ok (given.set field read.1, read.2)
  | none, text => skip text >>= fun rest => .ok (given, rest)

theorem memberValue_eq_bind {given : Overrides} {name : Text} (usable : Usable given name)
    (text : Text) :
    memberValue given name text = mark ':' text >>= memberBody given (Field.ofKey? name) := by
  cases known : Field.ofKey? name with
  | none =>
      simp only [memberValue, known]
      rfl
  | some field =>
      simp only [memberValue, known, usable field (Field.ofKey?_eq_some_iff.mp known),
        Option.isSome_none, Bool.false_eq_true, ↓reduceIte]
      rfl

/-! ## Members -/

theorem members_of_error {given : Overrides} {text : Text} {fault : Fault}
    (refused : member given text = .error fault) : members given text = .error fault := by
  rw [members]
  split
  · rename_i other otherwise
    rw [refused] at otherwise
    cases otherwise
    rfl
  · rename_i accepted
    rw [refused] at accepted
    cases accepted

theorem members_of_comma {given middle : Overrides} {text after later : Text}
    (memberRead : member given text = .ok (middle, after))
    (comma : skipSpace after = ',' :: later) : members given text = members middle later := by
  rw [members]
  split
  · rename_i refused
    rw [memberRead] at refused
    cases refused
  · rename_i accepted
    rw [memberRead] at accepted
    cases accepted
    split
    · rename_i ended
      rw [comma] at ended
      cases ended
    · rename_i start
      rw [comma] at start
      cases start
      rfl

theorem members_leading_append {entries : List (List (Field × Text))} {source : Text}
    (leading : Leading Member entries source) {given : Overrides}
    (fresh : given.Fresh entries.flatten) (rest : Text) :
    members given (source ++ rest) = members (given.setAll entries.flatten) rest := by
  induction leading generalizing given with
  | nil => rfl
  | @cons entry entries first later source isMember leading joined ih =>
      simp only [joined, List.append_assoc, List.cons_append]
      obtain ⟨freshHere, freshLater⟩ := Overrides.fresh_append_iff.mp fresh
      obtain ⟨space, isSpace, memberRead⟩ := isMember.exists_member_append freshHere
      rw [members_of_comma (memberRead _ (endsNumber_comma _))
        (isSpace.skipSpace_append_cons rfl _), ih freshLater, List.flatten_cons,
        Overrides.setAll_append]

theorem Leading.exists_skipSpace_eq_cons {entries : List (List (Field × Text))} {source : Text}
    (leading : Leading Member entries source) {rest : Text}
    (quote : ∃ later, skipSpace rest = '"' :: later) :
    ∃ later, skipSpace (source ++ rest) = '"' :: later := by
  cases leading with
  | nil => exact quote
  | cons isMember _ joined =>
      rw [joined, List.append_assoc]
      exact isMember.exists_skipSpace_eq_cons _

theorem object_eq_members {text later : Text} (quote : skipSpace text = '"' :: later) :
    object text = members Overrides.none text := by
  rw [← members_skipSpace, object, quote]
  rfl

/-! ## Faults -/

theorem memberValue_of_isSome {given : Overrides} {field : Field}
    (present : (given.get? field).isSome = true) (text : Text) :
    memberValue given field.key text = .error .wrongData := by
  simp [memberValue, Field.ofKey?_key, present]

theorem fieldValue_opening {space : Text} (isSpace : Space space) (bracket : Bracket)
    (rest : Text) : fieldValue (space ++ bracket.opening :: rest) = .error .wrongData := by
  have start := isSpace.skipSpace_append_cons (isSpace_opening bracket) rest
  cases bracket with
  | array =>
      rw [fieldValue, start]
      rfl
  | object =>
      rw [fieldValue, start]
      rfl

theorem get?_setAll_isSome_iff {given : List (Field × Text)} (once : (given.map Prod.fst).Nodup)
    {field : Field} :
    ((Overrides.none.setAll given).get? field).isSome = true ↔ field ∈ given.map Prod.fst := by
  rw [Overrides.get?_setAll (Overrides.fresh_none once), Overrides.get?_none, Option.or_none,
    Option.isSome_iff_ne_none, Ne, List.lookup_eq_none_iff]
  constructor
  · intro found
    by_contra notGiven
    apply found
    intro assignment member
    rw [bne_iff_ne]
    rintro rfl
    exact notGiven (List.mem_map.mpr ⟨assignment, member, rfl⟩)
  · intro member notFound
    obtain ⟨assignment, inGiven, rfl⟩ := List.mem_map.mp member
    simpa using notFound assignment inGiven

theorem UptoKey.ofDocument_append {field : Field} {given : List (Field × Text)} {source : Text}
    (upto : UptoKey field.key given source) {rest : Text}
    (refused : memberValue (Overrides.none.setAll given) field.key rest = .error .wrongData) :
    ofDocument (source ++ rest) = .error .wrongData := by
  cases upto with
  | @opened members lead inner key _ leadSpace leading once isKey joined =>
      obtain ⟨later, quote⟩ :=
        leading.exists_skipSpace_eq_cons (isKey.exists_skipSpace_eq_cons rest)
      have objectRead : object (inner ++ (key ++ rest)) = .error .wrongData := by
        rw [object_eq_members quote, members_leading_append leading (Overrides.fresh_none once)]
        exact members_of_error ((member_append_of_keyString isKey _ rest).trans refused)
      have start : skipSpace (lead ++ '\x7b' :: (inner ++ (key ++ rest))) =
          '\x7b' :: (inner ++ (key ++ rest)) := leadSpace.skipSpace_append_cons rfl _
      simp [joined, ofDocument, overrides, start, objectRead, bind, Except.bind]

theorem ofFile_eq_invalid {files : Files.FileSystem} {path text : Text} {fault : Fault}
    (textRead : files.readText path = .ok text) (refused : ofDocument text = .error fault) :
    ofFile files path = .error (.invalid path fault) := by
  simp [ofFile, textRead, refused]

/-- Behind complete members, the key of a field that is given already is refused as data at the end
of its string, and the value of a field at a bracket, whatever follows. -/
theorem ofFile_eq_wrongData_of_uptoKey {files : Files.FileSystem} {path source rest : Text}
    {field : Field} {given : List (Field × Text)} (upto : UptoKey field.key given source)
    (textRead : files.readText path = .ok (source ++ rest))
    (fault : field ∈ given.map Prod.fst ∨
      ∃ beforeColon afterColon bracket later, Space beforeColon ∧ Space afterColon ∧
        rest = beforeColon ++ ':' :: (afterColon ++ Bracket.opening bracket :: later)) :
    ofFile files path = .error (.invalid path .wrongData) := by
  apply ofFile_eq_invalid textRead
  apply upto.ofDocument_append
  have once : (given.map Prod.fst).Nodup := by
    cases upto with
    | opened _ _ once _ _ => exact once
  -- Whether the field is given decides, as a duplicate is refused before a bracket is looked at.
  by_cases present : field ∈ given.map Prod.fst
  · exact memberValue_of_isSome ((get?_setAll_isSome_iff once).mpr present) rest
  · rcases fault with duplicate | ⟨beforeColon, afterColon, bracket, later, before, after, rfl⟩
    · exact absurd duplicate present
    · have absent : (Overrides.none.setAll given).get? field = none := by
        simpa using mt (get?_setAll_isSome_iff once).mp present
      have colonRead := (mark_eq_ok_iff rfl).mpr ⟨beforeColon, before,
        Eq.refl (beforeColon ++ ':' :: (afterColon ++ bracket.opening :: later))⟩
      rw [memberValue_eq_bind (usable_key absent), colonRead, Field.ofKey?_key]
      simp [memberBody, fieldValue_opening after, bind, Except.bind]

theorem ofFile_eq_wrongData_of_uptoKey_escaped :
    let source := " \x7b\"x\":[-1],\"input\":\"a\", \"\\u0069nput\"".toList
    let files : Files.FileSystem :=
      ⟨[(["c".toList, ['w']], .file (Files.FileSystem.bytesOf (source ++ ":]\x7d".toList)))],
        [['w']]⟩
    UptoKey Field.input.key [(.input, "a".toList)] source ∧
      ofFile files "c".toList = .error (.invalid "c".toList .wrongData) := by
  intro source files
  have space : Space [' '] := by decide
  have unknown : Spelling .strict ['x'] ['x'] := spelling_iff.mpr (by decide +kernel)
  have value : Spelling .strict ['a'] ['a'] := spelling_iff.mpr (by decide +kernel)
  have plain : Spelling .strict Field.input.key "input".toList :=
    spelling_iff.mpr (by decide +kernel)
  have escaped : Spelling .strict Field.input.key "\\u0069nput".toList :=
    spelling_iff.mpr (by decide +kernel)
  have whole : IsWhole ['1'] := ⟨by decide, by decide⟩
  have one : IsUnsigned ['1'] := .parts whole .absent .absent rfl
  have list : IsValue "[-1]".toList :=
    .filled (.last (.element space_nil) (.scalar (.negative one)) space_nil rfl) rfl
  have other : Member [] "\"x\":[-1]".toList :=
    .other (.spelled space_nil unknown space_nil space_nil rfl) (by rintro ⟨⟩ <;> decide) list
      space_nil rfl
  have input : Member [(.input, "a".toList)] "\"input\":\"a\"".toList :=
    .field (.spelled space_nil plain space_nil space_nil rfl)
      (.spelled space_nil value space_nil rfl) rfl
  have upto : UptoKey Field.input.key
      ([[], [(.input, "a".toList)]] : List (List (Field × Text))).flatten source :=
    .opened space (.cons other (.cons input .nil rfl) rfl) (by decide)
      (.spelled space escaped rfl) rfl
  have textRead : files.readText "c".toList = .ok (source ++ ":]\x7d".toList) := by
    decide +kernel
  exact ⟨upto, ofFile_eq_wrongData_of_uptoKey upto textRead (.inl (by decide))⟩

end ScopedCss.Settings
