import ScopedCss.Files.Access
import ScopedCss.Log
import ScopedCss.Settings.Basic
import ScopedCss.Stylesheet

set_option autoImplicit false

/-!
# Runs

A run reads a stylesheet file, scopes it and writes the result to another file or to the same. The
input is read in full before the output is touched. An input that does not exist is an outcome and
not a failure.

`Run.plan` and `Run.conclude` are the decisions of a run, before and after the output is written;
`Run.onFiles` is the whole run on a file system.
-/

namespace ScopedCss.Run

/-- How a run ends without failing. -/
inductive Outcome where
  /-- The output holds this many scoped rules. -/
  | done (output : Text) (rules : Nat)
  /-- There is no input, and nothing was written. -/
  | noInput (input : Text)
  deriving DecidableEq

inductive Failure where
  | unreadable (path : Text) (cause : Files.Failure)
  | unwritable (path : Text) (cause : Files.Failure)
  deriving DecidableEq

def Outcome.hasOutput : Outcome → Bool
  | .done .. => true
  | .noInput _ => false

def Failure.cause : Failure → Files.Failure
  | .unreadable _ cause => cause
  | .unwritable _ cause => cause

def Failure.message : Failure → Text
  | .unreadable path cause =>
      "failed to read stylesheet '".toList ++ path ++ "': ".toList ++ cause.message
  | .unwritable path cause =>
      "failed to write stylesheet '".toList ++ path ++ "': ".toList ++ cause.message

/-- The result of a run, and what it logged in order. -/
structure Report where
  result : Except Failure Outcome
  log : List Log.Record

def noInputRecord (settings : Settings) : Log.Record :=
  ⟨.error, .run,
    "input stylesheet '".toList ++ settings.input ++ "' was not found".toList⟩

def foundRecord (settings : Settings) (rules : Nat) : Log.Record :=
  ⟨.debug, .run,
    "found ".toList ++ Nat.toDigits 10 rules ++ " rule blocks in '".toList ++ settings.input ++
      ['\'']⟩

def wroteRecord (settings : Settings) (rules : Nat) : Log.Record :=
  ⟨.info, .run,
    "wrote ".toList ++ Nat.toDigits 10 rules ++ " rule blocks scoped under '".toList ++
      settings.wrapper ++ "' to '".toList ++ settings.output ++ ['\'']⟩

/-- What a run does after reading its input: it ends, or it writes these rules. -/
inductive Plan where
  | stop (report : Report)
  | write (rules : List Rule)

def plan (settings : Settings) : Except Files.Failure Text → Plan
  | .error .notFound => .stop ⟨.ok (.noInput settings.input), [noInputRecord settings]⟩
  | .error cause => .stop ⟨.error (.unreadable settings.input cause), []⟩
  | .ok text => .write (Rule.allIn text)

/-- The report of a run that tried to write its output. -/
def conclude (settings : Settings) (rules : List Rule) : Except Files.Failure Unit → Report
  | .error cause =>
      ⟨.error (.unwritable settings.output cause), [foundRecord settings rules.length]⟩
  | .ok () =>
      ⟨.ok (.done settings.output rules.length),
        [foundRecord settings rules.length, wroteRecord settings rules.length]⟩

/-- A run on a file system, and the file system after it. -/
def onFiles (settings : Settings) (files : Files.FileSystem) : Report × Files.FileSystem :=
  match plan settings (files.readText settings.input) with
  | .stop report => (report, files)
  | .write rules =>
      let content := Files.FileSystem.bytesOf (Stylesheet.ofRules settings.wrapper rules)
      match files.write settings.output content with
      | .error cause => (conclude settings rules (.error cause), files)
      | .ok after => (conclude settings rules (.ok ()), after)

end ScopedCss.Run
