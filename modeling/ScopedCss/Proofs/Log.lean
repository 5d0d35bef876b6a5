import ScopedCss.Log.Setting
import ScopedCss.Proofs.Text.Pieces

set_option autoImplicit false

/-!
# Settings that name a threshold

The name of a threshold alone is the setting under which every source has this threshold
(`Filter.ofSetting_of_spells`).
-/

namespace ScopedCss.Log

namespace Threshold

def name : Threshold → Text
  | .off => "off".toList
  | .downTo .error => "error".toList
  | .downTo .warning => "warn".toList
  | .downTo .info => "info".toList
  | .downTo .debug => "debug".toList
  | .downTo .trace => "trace".toList

/-- A text is the name of a threshold in any letter case. -/
def Spells (threshold : Threshold) (text : Text) : Prop := text.map Char.toLower = threshold.name

variable {threshold : Threshold} {text : Text}

theorem Spells.ofName?_eq (spells : threshold.Spells text) : ofName? text = some threshold := by
  have lowered : text.map Char.toLower = threshold.name := spells
  simp only [ofName?, lowered]
  cases threshold with
  | off => rfl
  | downTo severity => cases severity <;> rfl

theorem Spells.not_mem (spells : threshold.Spells text) {character : Char}
    (caseless : character.toLower = character) (foreign : character ∉ threshold.name) :
    character ∉ text := by
  intro member
  have lowered : character.toLower ∈ text.map Char.toLower := List.mem_map_of_mem member
  rw [caseless, show text.map Char.toLower = threshold.name from spells] at lowered
  exact foreign lowered

theorem name_solid (threshold : Threshold) :
    (threshold.name.all fun character => !Text.isBlank character) = true := by
  cases threshold with
  | off => decide
  | downTo severity => cases severity <;> decide

theorem not_mem_name (threshold : Threshold) :
    '/' ∉ threshold.name ∧ ',' ∉ threshold.name ∧ '=' ∉ threshold.name := by
  cases threshold with
  | off => decide
  | downTo severity => cases severity <;> decide

theorem Spells.isPiece (spells : threshold.Spells text) : Text.IsPiece ',' text where
  nonempty := by
    rintro rfl
    have empty : [] = threshold.name := spells
    cases threshold with
    | off => cases empty
    | downTo severity => cases severity <;> cases empty
  trimmed := by
    have solid : ∀ character ∈ text, Text.isBlank character = false := by
      intro character member
      by_contra blank
      have isBlank : Text.isBlank character = true := by simpa using blank
      refine spells.not_mem (Text.toLower_eq_self_of_isBlank isBlank) ?_ member
      intro inName
      simpa [isBlank] using List.all_eq_true.mp threshold.name_solid character inName
    rw [Text.trim_eq_self_iff]
    exact ⟨fun character first => solid character (List.mem_of_mem_head? first),
      fun character last => solid character (List.mem_of_mem_getLast? last)⟩
  unseparated := spells.not_mem rfl threshold.not_mem_name.2.1

end Threshold

/-- A setting that is the name of a threshold, in any letter case, gives it to every source. -/
theorem Filter.ofSetting_of_spells {threshold : Threshold} {setting : Text}
    (spells : threshold.Spells setting) : ofSetting setting = uniform threshold := by
  obtain ⟨noSlash, _, noEquals⟩ := threshold.not_mem_name
  have directive : Directive.ofText? setting = some ⟨none, threshold⟩ := by
    rw [Directive.ofText?, List.splitOn_eq_singleton (spells.not_mem rfl noEquals)]
    simp only [spells.ofName?_eq]
  have directives : Directive.allIn setting = [⟨none, threshold⟩] := by
    rw [Directive.allIn, List.splitOn_eq_singleton (spells.not_mem rfl noSlash)]
    simp [spells.isPiece.pieces, directive, Directive.put]
  rw [ofSetting, directives]
  simp [ofDirectives, Directive.choose, Directive.covers, Directive.start, uniform]

/-- The longest name counts, and a name alone shows everything. -/
example :
    let filter := Filter.ofSetting "info,css_shield=off, css_shield::shield".toList
    [Source.program, .settings, .run].map filter.threshold = [.off, .off, .downTo .trace] := by
  decide

end ScopedCss.Log
