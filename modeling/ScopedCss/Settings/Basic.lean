import ScopedCss.Text.Blank

set_option autoImplicit false

/-!
# Settings

The settings of a run say which stylesheet to read, where to write the result, and the wrapper
selector to scope it under. Fields that are given override the defaults one by one.
-/

namespace ScopedCss

structure Settings where
  input : Text
  output : Text
  wrapper : Text
  deriving DecidableEq

namespace Settings

/-- The layout of the page template that the defaults are made for. -/
def defaults : Settings where
  input := "template_base/style.css".toList
  output := "template_base/style-wp.css".toList
  wrapper := ".guto-article-wrapper".toList

/-- The file that settings are looked up in. -/
def fileName : Text := "css-shield.json".toList

inductive Field where
  | input
  | output
  | wrapper
  deriving DecidableEq

namespace Field

/-- The key of a field in a settings file. -/
def key : Field → Text
  | .input => "input".toList
  | .output => "output".toList
  | .wrapper => "prefix".toList

/-- The fields in the order in which a list of values gives them. -/
def all : List Field := [.input, .output, .wrapper]

/-- The field with the given key. Keys are told apart by letter case. -/
def ofKey? (key : Text) : Option Field := all.find? fun field => field.key = key

theorem ofKey?_key (field : Field) : ofKey? field.key = some field := by
  cases field <;> decide

theorem ofKey?_eq_some_iff {key : Text} {field : Field} :
    ofKey? key = some field ↔ field.key = key := by
  constructor
  · intro found
    simpa using List.find?_some found
  · intro same
    rw [← same, ofKey?_key]

end Field

/-- The fields that are given, each with its value. -/
structure Overrides where
  input : Option Text
  output : Option Text
  wrapper : Option Text
  deriving DecidableEq

namespace Overrides

def none : Overrides := ⟨.none, .none, .none⟩

def get? (given : Overrides) : Field → Option Text
  | .input => given.input
  | .output => given.output
  | .wrapper => given.wrapper

def set (given : Overrides) (field : Field) (value : Text) : Overrides :=
  match field with
  | .input => { given with input := some value }
  | .output => { given with output := some value }
  | .wrapper => { given with wrapper := some value }

/-- The settings with the given fields in place of the defaults. -/
def apply (given : Overrides) : Settings where
  input := given.input.getD defaults.input
  output := given.output.getD defaults.output
  wrapper := given.wrapper.getD defaults.wrapper

theorem get?_set (given : Overrides) (field other : Field) (value : Text) :
    (given.set field value).get? other = if other = field then some value else given.get? other := by
  cases field <;> cases other <;> rfl

end Overrides

end Settings

end ScopedCss
