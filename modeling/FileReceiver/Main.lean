/-
# The command line

The outermost layer of the program. It takes the environment and the files
that a command line can name from the machine, lets `Program.launch` decide,
and prints what it says. The transport is left to whoever serves the requests
of a started receiver with `Http.respond`, so that after the start there is
nothing left to do here but to say where the receiver listens.
-/
import FileReceiver.CommandLine.Program
import FileReceiver.Http.Server
import Std.Time.DateTime.Timestamp

namespace FileReceiver

/-- The variables that the program looks at. -/
def knownVariables : List String :=
  ["HOME", "XDG_CONFIG_HOME", Settings.folderVariable] ++ Setting.all.map Setting.variableName

/-- The known variables that are set. -/
def readEnvironment : IO Environment := do
  let mut environment : Environment := []
  for name in knownVariables do
    if let some value ← IO.getEnv name then
      environment := environment ++ [(name, value)]
  return environment

/-- A disk with nothing but the working folder. -/
def emptyDisk : IO Disk := do
  let folder := (← IO.currentDir).toString
  let d : Disk := { entries := ∅ }
  let d := (d.makeFolders ⟨folder⟩).2
  return { d with
    workingFolder := (Disk.stepsOf folder).filterMap fun
      | .name s => some s
      | _ => none }

/-- The disk with a copy of one file of the machine, if it can be read. -/
def copyFile (d : Disk) (p : Path) : IO Disk := do
  try
    let content ← IO.FS.readBinFile p.text
    let d := match p.parent? with
      | some parent => (d.makeFolders parent).2
      | none => d
    return (d.writeFile p content).2
  catch _ => return d

/-- The fields of the first line that has the given one at a place. -/
def lineWith? (separator : Char) (place : Nat) (field : List Char) (text : String) :
    Option (List (List Char)) :=
  ((Text.pieces '\n' text.toList).map (Text.pieces separator)).find? fun fields =>
    fields[place]? == some field

/-- The home folder of the account for which a process runs: the status of the process tells the
number of the account, and the list of the accounts its home. -/
def homeOfAccount? (status accounts : String) : Option Path := do
  let process ← lineWith? '\t' 0 "Uid:".toList status
  let account ← lineWith? ':' 2 (← process[1]?) accounts
  let home ← account[5]?
  if home = [] then none else some ⟨String.ofList home⟩

/-- The home folder of the account for which the program runs. -/
def accountHome : IO (Option Path) := do
  try
    return homeOfAccount? (← IO.FS.readFile "/proc/self/status") (← IO.FS.readFile "/etc/passwd")
  catch _ => return none

/-- A disk with copies of the files that the command line makes the program read. -/
def copyFiles (words : List String) (environment : Environment) (home : Option Path) :
    IO Disk := do
  let empty ← emptyDisk
  let d ← (VariableFile.places empty.workingFolder.reverse).foldlM copyFile empty
  match (VariableFile.extend? environment d).1 with
  | none => return d
  | some environment =>
    match Arguments.parse words environment with
    | .error _ => return d
    | .ok a =>
      let d ← match a.settingsFile.or (Settings.standardPath? environment home) with
        | some p => copyFile d p
        | none => pure d
      match (a.settings environment "" d home).1 with
      | .error _ => return d
      | .ok s => copyFile (← copyFile d s.certificate) s.key

/-- The machine as the program sees it; every port but zero is taken as asked for. -/
def thisMachine : IO Machine := do
  let millis := (← Std.Time.Timestamp.now).toMillisecondsSinceUnixEpoch.toInt.toNat
  return {
    deviceId := Device.idOf millis (← IO.rand 0 0xFFFFFFFF)
    hostname := (← IO.getEnv "HOSTNAME").getD "Unknown-PC"
    operatingSystem := "linux"
    address := "127.0.0.1"
    bind := fun port => some (if port = 0 then 49152 else port)
    accountHome := ← accountHome }

/-- Prints what became of the command line, and gives its exit code. -/
def report (ending : Program.Ending) : IO UInt32 := do
  match ending with
  | .aborted => IO.eprintln "error: a variable cannot hold a zero byte"
  | .version => IO.print Program.versionText
  | .help => IO.println "Usage: lansend [OPTIONS]"
  | .usage _ => IO.eprintln "error: see --help"
  | .failed message causes => IO.eprint (Program.failureText message causes)
  | .serving running =>
    IO.println ("LanSend receiver ready on port " ++ toString running.port.toNat ++
      " (PIN required for pairing)")
  return ending.exitCode.toUInt32

end FileReceiver

open FileReceiver in
/-- Runs the program. -/
def main (words : List String) : IO UInt32 := do
  let environment ← readEnvironment
  let machine ← thisMachine
  let d ← copyFiles words environment machine.accountHome
  let pin := Program.pinOfNumber (← IO.rand 0 999999)
  report (Program.launch machine pin words environment d).1
