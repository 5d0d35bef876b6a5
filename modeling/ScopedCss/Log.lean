import ScopedCss.Text.Blank

set_option autoImplicit false

/-!
# Log records

A record is data until it is shown. A filter decides which records are shown, each on a line of its
own: it gives a threshold to every source.
-/

namespace ScopedCss.Log

inductive Severity where
  | error
  | warning
  | info
  | debug
  | trace
  deriving DecidableEq

/-- The part of the program that a record comes from. -/
inductive Source where
  | program
  | settings
  | run
  deriving DecidableEq

structure Record where
  severity : Severity
  source : Source
  message : Text
  deriving DecidableEq

/-- The number of severities down to this one, counted from the gravest. -/
def Severity.rank : Severity → Nat
  | .error => 1
  | .warning => 2
  | .info => 3
  | .debug => 4
  | .trace => 5

def Severity.name : Severity → Text
  | .error => "ERROR".toList
  | .warning => "WARN".toList
  | .info => "INFO".toList
  | .debug => "DEBUG".toList
  | .trace => "TRACE".toList

def Source.name : Source → Text
  | .program => "css_shield".toList
  | .settings => "css_shield::config".toList
  | .run => "css_shield::shield".toList

/-- The line that shows a record. Names of severities are filled up to the longest. -/
def Record.line (record : Record) : Text :=
  let severity := record.severity.name
  '[' :: severity ++ List.replicate (5 - severity.length) ' ' ++ ' ' :: record.source.name ++
    "] ".toList ++ record.message ++ ['\n']

/-- How much of a log is shown: nothing, or all records down to a severity. -/
inductive Threshold where
  | off
  | downTo (severity : Severity)
  deriving DecidableEq

namespace Threshold

def rank : Threshold → Nat
  | .off => 0
  | .downTo severity => severity.rank

def shows (threshold : Threshold) (record : Record) : Bool :=
  record.severity.rank ≤ threshold.rank

/-- Without a setting, warnings are the last to be shown. -/
def standard : Threshold := .downTo .warning

/-- The threshold with the given name, in any letter case. -/
def ofName? (name : Text) : Option Threshold :=
  let lowered := name.map Char.toLower
  if lowered = "off".toList then some .off
  else if lowered = "error".toList then some (.downTo .error)
  else if lowered = "warn".toList then some (.downTo .warning)
  else if lowered = "info".toList then some (.downTo .info)
  else if lowered = "debug".toList then some (.downTo .debug)
  else if lowered = "trace".toList then some (.downTo .trace)
  else none

end Threshold

/-- How much of a log is shown, source by source. -/
structure Filter where
  threshold : Source → Threshold

namespace Filter

/-- The filter that treats all sources alike. -/
def uniform (threshold : Threshold) : Filter := ⟨fun _ => threshold⟩

instance : Coe Threshold Filter := ⟨uniform⟩

def shows (filter : Filter) (record : Record) : Bool :=
  (filter.threshold record.source).shows record

end Filter

/-- The lines of the records that a filter shows. -/
def shown (filter : Filter) (records : List Record) : List Text :=
  (records.filter filter.shows).map Record.line

theorem Filter.shows_of_rank_le {terse verbose : Filter}
    (ordered : ∀ source, (terse.threshold source).rank ≤ (verbose.threshold source).rank)
    {record : Record} (showsIt : terse.shows record = true) : verbose.shows record = true := by
  simp only [shows, Threshold.shows, decide_eq_true_eq] at showsIt ⊢
  exact Nat.le_trans showsIt (ordered record.source)

theorem shown_sublist {terse verbose : Filter}
    (ordered : ∀ source, (terse.threshold source).rank ≤ (verbose.threshold source).rank)
    (records : List Record) : (shown terse records).Sublist (shown verbose records) := by
  apply List.Sublist.map
  have twice : records.filter terse.shows = (records.filter verbose.shows).filter terse.shows := by
    rw [List.filter_filter]
    apply List.filter_congr
    intro record _
    cases showsIt : terse.shows record with
    | true => simp [Filter.shows_of_rank_le ordered showsIt]
    | false => simp
  rw [twice]
  exact List.filter_sublist

end ScopedCss.Log
