/-
# The program

What the program does with a command line: it reads the variables of the
working folder, then the words, then the settings, and starts a receiver. It
ends by itself if anything of this fails or if only help or the version is
asked for; then it has an exit code, and a failure is told with everything
that lies behind it.

Key definitions: `Program.Ending`, `Program.failureText`, `Program.launch`.
-/
import FileReceiver.CommandLine.Overlay
import FileReceiver.CommandLine.VariableFile
import FileReceiver.Startup

namespace FileReceiver.Program

/-- The name and version that the program tells. -/
def versionText : String := "lansend 0.1.0\n"

/-- A PIN of six digits. -/
def pinOfNumber (n : Nat) : String :=
  let digits := Nat.toDigits 10 n
  String.ofList (List.replicate (6 - digits.length) '0' ++ digits)

/-- How the program goes on or ends. -/
inductive Ending where
  /-- The variable file asks for a variable that cannot be set. -/
  | aborted
  | version
  | help
  | usage (e : UsageError)
  /-- A failure with its message and what lies behind it, the nearest cause first. -/
  | failed (message : String) (causes : List String)
  | serving (r : Running)

def Ending.exitCode : Ending → Nat
  | version | help | serving _ => 0
  | usage e => e.exitCode
  | failed _ _ => 1
  | aborted => 101

/-- Text whose lines but the first are moved to the right. -/
def indented (blanks : Nat) (text : String) : String :=
  String.ofList (text.toList.flatMap fun c =>
    if c = '\n' then '\n' :: List.replicate blanks ' ' else [c])

/-- The causes of a failure, each on a line of its own; several are numbered from zero. -/
def causeLines (causes : List String) : String :=
  match causes with
  | [] => ""
  | [cause] => "\n\nCaused by:\n    " ++ indented 4 cause
  | causes =>
    "\n\nCaused by:" ++ String.join (causes.zipIdx.map fun (cause, i) =>
      "\n    " ++ toString i ++ ": " ++ indented 7 cause)

/-- What is told about a failure. -/
def failureText (message : String) (causes : List String) : String :=
  "Error: " ++ message ++ causeLines causes ++ "\n"

/-- The failure of the settings. -/
def settingsFailure (e : SettingsError) : Ending :=
  .failed e.message e.cause?.toList

/-- The failure of the start. -/
def startFailure (e : StartError) : Ending :=
  .failed "LanSend receiver failed" (e.message :: e.cause?.toList)

/-- Does what the command line says. -/
def launch (m : Machine) (randomPin : String) (words : List String) (environment : Environment)
    (d : Disk) : Ending × Disk :=
  match VariableFile.extend? environment d with
  | (none, d) => (.aborted, d)
  | (some environment, d) =>
    match Arguments.parse words environment with
    | .error .help => (.help, d)
    | .error .version => (.version, d)
    | .error e => (.usage e, d)
    | .ok arguments =>
      match arguments.settings environment randomPin d m.accountHome with
      | (.error e, d) => (settingsFailure e, d)
      | (.ok settings, d) =>
        match run m settings d with
        | (.error e, d) => (startFailure e, d)
        | (.ok running, d) => (.serving running, d)

end FileReceiver.Program
