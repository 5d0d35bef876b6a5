import ScopedCss.Log
import ScopedCss.Text.Pieces

set_option autoImplicit false

/-!
# Settings of the log

A setting is a list of directives, with a `,` between them. A directive gives a threshold to the
sources whose names begin with its own, or to all sources if it has no name. Of the directives for a
source the one with the longest name counts. What cannot be read is passed over.
-/

namespace ScopedCss.Log

structure Directive where
  name : Option Text
  threshold : Threshold
  deriving DecidableEq

namespace Directive

/-- Everything is shown of the sources that are named alone. -/
def ofText? (text : Text) : Option Directive :=
  match text.splitOn '=' with
  | [name] =>
      match Threshold.ofName? name with
      | some threshold => some ⟨none, threshold⟩
      | none => some ⟨some name, .downTo .trace⟩
  | [name, threshold] =>
      if Text.trim threshold = [] then some ⟨some name, .downTo .trace⟩
      else (Threshold.ofName? (Text.trim threshold)).map fun threshold => ⟨some name, threshold⟩
  | _ => none

def start (directive : Directive) : Text := directive.name.getD []

def covers (directive : Directive) (source : Source) : Bool :=
  directive.start.isPrefixOf source.name

/-- Adds a directive, in the place of one with the same name. -/
def put (directives : List Directive) (added : Directive) : List Directive :=
  match directives with
  | [] => [added]
  | first :: later => if first.name = added.name then added :: later else first :: put later added

/-- The directives of a setting. Behind a slash a setting may have a pattern for messages, which has
no effect here. With a second slash it has no directives. -/
def allIn (setting : Text) : List Directive :=
  match setting.splitOn '/' with
  | [directives] | [directives, _] => ((Text.pieces ',' directives).filterMap ofText?).foldl put []
  | _ => []

/-- The better directive for a source: of two with names of one length the later one. -/
def choose (source : Source) (best : Option Directive) (later : Directive) : Option Directive :=
  if later.covers source ∧ best.all fun earlier => earlier.start.length ≤ later.start.length then
    some later
  else best

end Directive

namespace Filter

/-- Without any directives only errors are shown. -/
def ofDirectives : List Directive → Filter
  | [] => uniform (.downTo .error)
  | directives =>
      ⟨fun source =>
        match directives.foldl (Directive.choose source) none with
        | some directive => directive.threshold
        | none => .off⟩

def ofSetting (setting : Text) : Filter := ofDirectives (Directive.allIn setting)

end Filter

end ScopedCss.Log
