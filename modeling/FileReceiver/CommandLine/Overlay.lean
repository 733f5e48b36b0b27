/-
# From arguments to settings

The settings of a file, named or at the standard place, are the ground over
which the options are laid. A random PIN takes the place of every other. The
PIN that comes out must not be empty.

Key definitions: `Arguments.overlay`, `Arguments.settings`.
-/
import FileReceiver.CommandLine.Arguments

namespace FileReceiver.Arguments

/-- The settings with every option that was given in the place of its own. -/
def overlay (a : Arguments) (randomPin : String) (s : Settings) : Settings where
  port := a.port.getD s.port
  broadcastPort := a.broadcastPort.getD s.broadcastPort
  broadcastInterval := a.broadcastInterval.getD s.broadcastInterval
  pin := if a.randomPin then randomPin else a.pin.getD s.pin
  outputFolder := a.outputFolder.getD s.outputFolder
  certificate := a.certificate.getD s.certificate
  key := a.key.getD s.key
  nickname := a.nickname.getD s.nickname
  deviceKind := s.deviceKind
  deviceModel := s.deviceModel
  maxBody := a.maxBody.getD s.maxBody

/-- The settings over which the options are laid. -/
def ground (a : Arguments) (environment : Environment) (d : Disk)
    (accountHome : Option Path := some Settings.superuserHome) :
    Except SettingsError Settings × Disk :=
  match a.settingsFile with
  | some p => Settings.load p d
  | none =>
    let (s, d) := Settings.loadStandard environment d accountHome
    (.ok s, d)

/-- The settings that the arguments ask for. -/
def settings (a : Arguments) (environment : Environment) (randomPin : String) (d : Disk)
    (accountHome : Option Path := some Settings.superuserHome) :
    Except SettingsError Settings × Disk :=
  match a.ground environment d accountHome with
  | (.error e, d) => (.error e, d)
  | (.ok s, d) =>
    let s := a.overlay randomPin s
    if s.pin = "" then (.error .emptyPin, d) else (.ok s, d)

end FileReceiver.Arguments
