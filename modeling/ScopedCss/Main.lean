import ScopedCss.CommandLine
import ScopedCss.Log.Setting

set_option autoImplicit false

/-!
# The program

The command on the files of the system it runs on. All that is decided is decided by
`Log.Filter.ofSetting`, `Run.plan`, `Run.conclude` and `CommandLine.transcript`; here the files are
read and written and the transcript is printed.
-/

namespace ScopedCss.Program

/-- The number of an error. Some operations report it negated. -/
def errorNumber (code : UInt32) : Nat := if code < 0x80000000 then code.toNat else (0 - code).toNat

def failureOfNumber (code : UInt32) (details : String) : Files.Failure :=
  match errorNumber code with
  | 2 => .notFound
  | 17 => .alreadyExists
  | 20 => .notADirectory
  | 21 => .isADirectory
  | 36 => .nameTooLong
  | number => .other (details.toList ++ " (os error ".toList ++ Nat.toDigits 10 number ++ [')'])

/-- The failure that an error of the system stands for. -/
def failureOf : IO.Error → Files.Failure
  | .noFileOrDirectory _ code details => failureOfNumber code details
  | .noSuchThing _ code details => failureOfNumber code details
  | .alreadyExists _ code details => failureOfNumber code details
  | .inappropriateType _ code details => failureOfNumber code details
  | .invalidArgument _ code details => failureOfNumber code details
  | .permissionDenied _ code details => failureOfNumber code details
  | .resourceExhausted _ code details => failureOfNumber code details
  | .resourceBusy code details => failureOfNumber code details
  | .hardwareFault code details => failureOfNumber code details
  | .otherError code details => failureOfNumber code details
  | error => .other error.toString.toList

/-- What an action gives, or why the system refuses it. -/
def attempt {α : Type} (action : IO α) : IO (Except Files.Failure α) := do
  match ← action.toBaseIO with
  | .ok value => return .ok value
  | .error error => return .error (failureOf error)

def run (settings : Settings) : IO Run.Report := do
  let content ← attempt (IO.FS.readBinFile (String.ofList settings.input))
  match Run.plan settings (content >>= Files.FileSystem.textOf) with
  | .stop report => return report
  | .write rules =>
      let content := Files.FileSystem.bytesOf (Stylesheet.ofRules settings.wrapper rules)
      let written ← attempt (IO.FS.writeBinFile (String.ofList settings.output) content)
      return Run.conclude settings rules written

/-- The filter that the environment asks for. -/
def filter : IO Log.Filter := do
  match ← IO.getEnv "RUST_LOG" with
  | none => return .uniform .standard
  | some setting => return .ofSetting setting.toList

end ScopedCss.Program

def main : IO UInt32 := do
  let filter ← ScopedCss.Program.filter
  let report ← ScopedCss.Program.run ScopedCss.Settings.defaults
  let transcript := ScopedCss.CommandLine.transcript filter report
  IO.eprint (String.ofList transcript.errors)
  IO.print (String.ofList transcript.output)
  return transcript.exitCode.toUInt32
