/-
# Settings in a file

Settings are kept in a JSON file. Loading a file by name tells what is wrong
with it; at the standard place, which the environment and the home of the user
decide, a file that cannot be used counts as none, and a user without a home
may have no such place. Saving makes the folders that are missing and
writes the file anew.

Key definitions: `SettingsError`, `Settings.load`, `Settings.save`,
`Environment`, `Settings.standardPath?`, `Settings.loadStandard`.
-/
import FileReceiver.Disk.Calls
import FileReceiver.Json.Printer
import FileReceiver.Settings.Basic

namespace FileReceiver

/-- Why settings cannot be had or kept. -/
inductive SettingsError where
  | unreadable (p : Path) (e : SystemError)
  /-- The file is no document of settings. -/
  | invalid (p : Path) (document : List UInt8) (e : Json.ReadError)
  | noFolder (e : SystemError)
  | unwritable (e : SystemError)
  | emptyPin

namespace SettingsError

def message : SettingsError → String
  | unreadable p _ => "Failed to read config file " ++ p.text
  | invalid p _ _ => "Invalid config file " ++ p.text
  | noFolder _ => "Failed to create config directory"
  | unwritable _ => "Failed to write config file"
  | emptyPin => "PIN must not be empty"

/-- The text of what lies behind the error. -/
def cause? : SettingsError → Option String
  | unreadable _ e | noFolder e | unwritable e => some e.message
  | invalid _ document e => some (e.located document)
  | emptyPin => none

end SettingsError

/-- The variables of the environment. -/
abbrev Environment := List (String × String)

namespace Settings

/-- Loads the settings from a file. -/
def load (p : Path) (d : Disk) : Except SettingsError Settings × Disk :=
  match d.readText p with
  | (.error e, d) => (.error (.unreadable p e), d)
  | (.ok text, d) =>
    let document := text.toUTF8.toList
    match schema.ofText document with
    | .ok settings => (.ok settings, d)
    | .error e => (.error (.invalid p document e), d)

/-- The document of the settings. -/
def document (s : Settings) : String :=
  (schema.toValue s).pretty

/-- Makes the folder that a file is to stand in. -/
def makeParent (p : Path) (d : Disk) : Outcome Unit :=
  match p.parent? with
  | none => (.ok (), d)
  | some parent => d.makeFolders parent

/-- Saves the settings in a file. -/
def save (s : Settings) (p : Path) (d : Disk) : Except SettingsError Unit × Disk :=
  match makeParent p d with
  | (.error e, d) => (.error (.noFolder e), d)
  | (.ok (), d) =>
    match d.writeFile p s.document.toUTF8 with
    | (.error e, d) => (.error (.unwritable e), d)
    | (.ok (), d) => (.ok (), d)

/-! ## The standard place -/

/-- The variable that names the folder of the settings. -/
def folderVariable : String := "LANSEND_CONFIG_DIR"

def fileName : String := "config.json"

/-- The home folder: that of the environment, unless it is empty, else that of the user's account,
if it has one. -/
def homeFolder? (environment : Environment) (accountHome : Option Path) : Option Path :=
  match environment.lookup "HOME" with
  | some home => if home = "" then accountHome else some ⟨home⟩
  | none => accountHome

/-- The folder under which programs keep their settings: that of the environment if it is absolute,
else one in the home folder. -/
def userFolder (environment : Environment) (home : Path) : Path :=
  match environment.lookup "XDG_CONFIG_HOME" with
  | some folder => if Path.isAbsolute ⟨folder⟩ then ⟨folder⟩ else home.join ".config"
  | none => home.join ".config"

/-- Where the settings stand if no file is named: in the folder that the environment names for them,
else in that of the user, and nowhere without a home. -/
def standardPath? (environment : Environment) (accountHome : Option Path) : Option Path :=
  match environment.lookup folderVariable with
  | some folder => some (Path.join ⟨folder⟩ fileName)
  | none => (homeFolder? environment accountHome).map fun home =>
      ((userFolder environment home).join "lansend_receiver").join fileName

/-- An account with a home has a standard place. -/
theorem isSome_standardPath? (environment : Environment) (home : Path) :
    (standardPath? environment (some home)).isSome = true := by
  unfold standardPath? homeFolder?
  repeat' split
  all_goals rfl

/-- The home of the superuser, for whom the program runs if no other account is told. -/
def superuserHome : Path := ⟨"/root"⟩

/-- Where the settings of the superuser stand. -/
def standardPath (environment : Environment) : Path :=
  (standardPath? environment superuserHome).get (isSome_standardPath? environment superuserHome)

/-- The settings at the standard place, or the defaults. -/
def loadStandard (environment : Environment) (d : Disk)
    (accountHome : Option Path := some superuserHome) : Settings × Disk :=
  match standardPath? environment accountHome with
  | none => ({}, d)
  | some p =>
    match load p d with
    | (.ok settings, d) => (settings, d)
    | (.error _, d) => ({}, d)

end Settings

end FileReceiver
