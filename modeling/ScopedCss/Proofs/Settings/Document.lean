import ScopedCss.Proofs.Settings.Value
import ScopedCss.Settings.Lookup

set_option autoImplicit false

/-!
# What a settings document says

A document is a value that gives fields, with white space around it. `ofFile` accepts these texts and
no others, and lays the fields that are given over the defaults.
-/

namespace ScopedCss.Settings

open Json

/-- The documents, with the fields that they give. -/
inductive Document (given : List (Field × Text)) : Text → Prop where
  | around {lead value tail source : Text} (leadSpace : Space lead) (gives : Gives given value)
      (tailSpace : Space tail) (joined : source = lead ++ (value ++ tail)) : Document given source

/-- The fields that are given have their values, and every other field has its default. -/
def Overlays (given : List (Field × Text)) (settings : Settings) : Prop :=
  ∀ field, settings.get field = (given.lookup field).getD (defaults.get field)

theorem apply_setAll_eq_iff {given : List (Field × Text)} (once : (given.map Prod.fst).Nodup)
    {settings : Settings} :
    (Overrides.none.setAll given).apply = settings ↔ Overlays given settings := by
  simp only [Overlays, Overrides.apply_eq_iff, Overrides.get?_setAll (Overrides.fresh_none once),
    Overrides.get?_none, Option.or_none]

theorem ofDocument_eq_ok_iff {text : Text} {settings : Settings} :
    ofDocument text = .ok settings ↔ ∃ given, Document given text ∧ Overlays given settings := by
  constructor
  · intro read
    obtain ⟨⟨found, rest⟩, overridesRead, kept⟩ := bind_ok read
    obtain ⟨lead, value, given, space, gives, rfl, rfl⟩ := overrides_sound overridesRead
    dsimp only at kept
    split at kept
    · rename_i ended
      cases kept
      have tailSpace := skipSpace_eq_nil_iff.mp (List.isEmpty_iff.mp ended)
      exact ⟨given, .around space gives tailSpace rfl, (apply_setAll_eq_iff gives.nodup).mp rfl⟩
    · cases kept
  · rintro ⟨given, ⟨space, gives, tailSpace, rfl⟩, overlays⟩
    have overridesRead := gives.overrides_append space
    have ended := skipSpace_eq_nil_iff.mpr tailSpace
    have applied := (apply_setAll_eq_iff gives.nodup).mpr overlays
    simp [ofDocument, overridesRead, ended, applied, bind, Except.bind, pure, Except.pure]

/-! ## Documents that give every field -/

def entries (settings : Settings) : List (Field × Text) :=
  Field.all.map fun field => (field, settings.get field)

theorem lookup_eq_some_of_mem {given : List (Field × Text)} (once : (given.map Prod.fst).Nodup)
    {field : Field} {value : Text} (member : (field, value) ∈ given) :
    given.lookup field = some value := by
  obtain ⟨before, after, rfl⟩ := List.append_of_mem member
  refine List.lookup_eq_some_iff.mpr ⟨before, after, rfl, ?_⟩
  intro assignment inBefore
  rw [List.map_append] at once
  rw [bne_iff_ne]
  exact ((List.nodup_append.mp once).2.2 assignment.1 (List.mem_map.mpr ⟨assignment, inBefore, rfl⟩)
    field List.mem_cons_self).symm

theorem nodup_of_perm_entries {given : List (Field × Text)} {settings : Settings}
    (all : given.Perm settings.entries) : (given.map Prod.fst).Nodup :=
  (all.map Prod.fst).nodup_iff.mpr (show Field.all.Nodup by decide)

theorem overlays_of_perm_entries {given : List (Field × Text)} {settings : Settings}
    (all : given.Perm settings.entries) : Overlays given settings := by
  intro field
  have listed : field ∈ Field.all := by cases field <;> decide
  have member : (field, settings.get field) ∈ given :=
    all.mem_iff.mpr (List.mem_map.mpr ⟨field, listed, rfl⟩)
  rw [lookup_eq_some_of_mem (nodup_of_perm_entries all) member, Option.getD_some]

theorem exists_listing {α : Type} {Item : α → Text → Prop} {items : List α}
    (spelled : ∀ item ∈ items, ∃ source, Item item source) : ∃ source, Listing Item items source := by
  induction items with
  | nil => exact ⟨[], .empty space_nil⟩
  | cons item items ih =>
      obtain ⟨first, isItem⟩ := spelled item List.mem_cons_self
      obtain ⟨later, listing⟩ := ih fun item member => spelled item (List.mem_cons_of_mem _ member)
      cases listing with
      | empty _ => exact ⟨first, .filled (.last isItem)⟩
      | filled separated => exact ⟨_, .filled (.more isItem separated rfl)⟩

theorem exists_member (field : Field) (value : Text) : ∃ source, Member [(field, value)] source := by
  obtain ⟨key, keySpelling⟩ := exists_spelling field.key
  obtain ⟨string, spelling⟩ := exists_spelling value
  exact ⟨_, .field (.spelled space_nil keySpelling space_nil space_nil rfl)
    (.spelled space_nil spelling space_nil rfl) rfl⟩

theorem exists_document {given : List (Field × Text)} (once : (given.map Prod.fst).Nodup) :
    ∃ source, Document given source := by
  have spelled : ∀ entry ∈ given.map (fun assignment => [assignment]),
      ∃ source, Member entry source := by
    intro entry member
    obtain ⟨⟨field, value⟩, _, rfl⟩ := List.mem_map.mp member
    exact exists_member field value
  obtain ⟨inner, listing⟩ := exists_listing spelled
  have flat : (given.map fun assignment => [assignment]).flatten = given := by
    rw [← List.flatMap_def, List.flatMap_singleton']
  have gives := Gives.object listing (by rwa [flat]) rfl
  rw [flat] at gives
  exact ⟨_, .around space_nil gives space_nil rfl⟩

/-! ## Settings files -/

theorem ofFile_eq_ok_iff_ofDocument {files : Files.FileSystem} {path : Text} {settings : Settings} :
    ofFile files path = .ok settings ↔
      ∃ text, files.readText path = .ok text ∧ ofDocument text = .ok settings := by
  unfold ofFile
  cases files.readText path with
  | error cause => simp
  | ok text =>
      cases read : ofDocument text with
      | error fault => simp [read]
      | ok found => simp [read]

/-- A settings file is accepted for its grammar alone, and says what the settings are. However the
fields are ordered and their values spelled, a document that gives them all is read as written. -/
theorem ofFile_eq_ok_iff (files : Files.FileSystem) (path : Text) (settings : Settings) :
    (ofFile files path = .ok settings ↔ ∃ text given, files.readText path = .ok text ∧
      Document given text ∧ Overlays given settings) ∧
    ∀ given : List (Field × Text), given.Perm settings.entries →
      (∃ text, Document given text) ∧
      ∀ text, Document given text → files.readText path = .ok text →
        ofFile files path = .ok settings := by
  constructor
  · simp only [ofFile_eq_ok_iff_ofDocument, ofDocument_eq_ok_iff, exists_and_left]
  · intro given all
    refine ⟨exists_document (nodup_of_perm_entries all), ?_⟩
    intro text document textRead
    have read := ofDocument_eq_ok_iff.mpr ⟨given, document, overlays_of_perm_entries all⟩
    exact ofFile_eq_ok_iff_ofDocument.mpr ⟨text, textRead, read⟩

end ScopedCss.Settings
