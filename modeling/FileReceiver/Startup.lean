/-
# Starting a receiver

A receiver starts with its certificate: if both files are there they have to
fit each other; if not, and only at the default paths, a certificate is made
for the run. Then the folder for received files is made, which may fail, and
the port is taken, which may not.

Key definitions: `TlsSettings`, `TlsSettings.ofSettings`, `TlsError`,
`TlsSettings.load`, `Machine`, `Device.idOf`, `Device.ofMachine`, `Running`,
`Running.announcement?`, `start`, `run`.
-/
import FileReceiver.Certificate.KeyPair
import FileReceiver.Certificate.SelfSigned
import FileReceiver.Discovery
import FileReceiver.Receiver
import FileReceiver.Settings.Store

namespace FileReceiver

/-- Where the certificate and its key are, and whether there may be none. -/
structure TlsSettings where
  certificate : Path
  key : Path
  allowSelfSigned : Bool
deriving DecidableEq, Repr

/-- Whose certificate is used. -/
inductive Credential where
  | configured
  | selfSigned
deriving DecidableEq, Repr

/-- What lies behind a certificate that cannot be used. -/
inductive CredentialFault where
  | unreadable (p : Path) (e : SystemError)
  | unfit (f : CertificateFault)
deriving DecidableEq, Repr

def CredentialFault.message : CredentialFault → String
  | unreadable p e => "failed to read from file `" ++ p.text ++ "`: " ++ e.message
  | unfit f => f.message

/-- Why there is no certificate to use. -/
inductive TlsError where
  | notFound (certificate key : Path)
  /-- The certificate made for the run is too long. -/
  | tooManyNames
  | unusable (certificate key : Path) (fault : CredentialFault)
deriving DecidableEq, Repr

namespace TlsError

def message : TlsError → String
  | notFound certificate key =>
    "SSL certificate (" ++ Text.quotedText certificate.text ++ ") or key (" ++
      Text.quotedText key.text ++ ") not found"
  | tooManyNames => "Failed to create TLS configuration"
  | unusable certificate key _ =>
    "Failed to load SSL certificate or key (" ++ Text.quotedText certificate.text ++ ", " ++
      Text.quotedText key.text ++ ")"

/-- The text of what lies behind the error. -/
def cause? : TlsError → Option String
  | notFound _ _ => none
  | tooManyNames => some (CertificateFault.badCertificate .badEncoding).message
  | unusable _ _ fault => some fault.message

end TlsError

namespace TlsSettings

/-- A certificate may be missing only if both paths are the default ones. -/
def ofSettings (s : Settings) : TlsSettings where
  certificate := s.certificate
  key := s.key
  allowSelfSigned :=
    let standard : Settings := {}
    s.certificate.sameAs standard.certificate && s.key.sameAs standard.key

/-- Reads the two files and fits them to each other. -/
def loadFiles (t : TlsSettings) (d : Disk) : Except CredentialFault Unit × Disk :=
  match d.read t.certificate with
  | (.error e, d) => (.error (.unreadable t.certificate e), d)
  | (.ok certificate, d) =>
    match d.read t.key with
    | (.error e, d) => (.error (.unreadable t.key e), d)
    | (.ok key, d) =>
      match checkKeyPair certificate key with
      | .ok () => (.ok (), d)
      | .error f => (.error (.unfit f), d)

/-- Finds the certificate to use, or makes one for the names of the machine, if it can be made for
them. -/
def load (t : TlsSettings) (names : List String) (d : Disk)
    (certifies : List String → Bool := SelfSigned.fits) : Except TlsError Credential × Disk :=
  let (certificateThere, d) := d.probe t.certificate
  let (keyThere, d) := d.probe t.key
  if certificateThere && keyThere then
    match t.loadFiles d with
    | (.ok (), d) => (.ok .configured, d)
    | (.error fault, d) => (.error (.unusable t.certificate t.key fault), d)
  else if t.allowSelfSigned then
    if certifies names then (.ok .selfSigned, d) else (.error .tooManyNames, d)
  else (.error (.notFound t.certificate t.key), d)

end TlsSettings

/-- What a receiver finds on the machine that it starts on. -/
structure Machine where
  deviceId : String
  hostname : String
  operatingSystem : String
  address : String
  /-- The port that is really taken when the given one is asked for; nothing if it is in use. -/
  bind : UInt16 → Option UInt16
  /-- Whether a certificate can be made for the given names. -/
  certifies : List String → Bool := SelfSigned.fits
  /-- The home folder of the account of the user, if it has one. -/
  accountHome : Option Path := some Settings.superuserHome

/-- The id of a device: the time at which it starts, and eight digits of a random number. -/
def Device.idOf (millis number : Nat) : String :=
  let digits := Nat.toDigits 16 number
  toString millis ++ "_" ++ String.ofList (List.replicate (8 - digits.length) '0' ++ digits)

/-- The identity of a receiver with the given settings. -/
def Device.ofMachine (m : Machine) (s : Settings) : Device where
  id := m.deviceId
  nickname := s.nickname
  hostname := m.hostname
  operatingSystem := m.operatingSystem
  address := m.address
  port := s.port
  kind := s.deviceKind
  model := s.deviceModel

/-- Why a receiver does not start. -/
inductive StartError where
  | tls (e : TlsError)
  | portTaken (port : UInt16)
deriving DecidableEq, Repr

namespace StartError

def message : StartError → String
  | tls e => e.message
  | portTaken port => "Failed to bind HTTPS server to 0.0.0.0:" ++ toString port.toNat

def cause? : StartError → Option String
  | tls e => e.cause?
  | portTaken _ => some (SystemError.message (.numbered 98))

end StartError

/-- A receiver that has started. -/
structure Running where
  receiver : Receiver
  credential : Credential
  /-- The port that it listens at. -/
  port : UInt16
  maxBody : Nat
  interval : UInt64

/-- Starts a receiver. -/
def start (m : Machine) (s : Settings) (t : TlsSettings) (d : Disk) :
    Except StartError Running × Disk :=
  match t.load [m.address, m.hostname] d m.certifies with
  | (.error e, d) => (.error (.tls e), d)
  | (.ok credential, d) =>
    let d := (d.makeFolders s.outputFolder).2
    match m.bind s.port with
    | none => (.error (.portTaken s.port), d)
    | some port =>
      let receiver : Receiver :=
        { device := Device.ofMachine m s, pin := s.pin, outputFolder := s.outputFolder, disk := d }
      (.ok ⟨receiver, credential, port, s.maxBody.toNat, s.interval⟩, d)

/-- The datagram with which a receiver announces itself again and again. -/
def Running.announcement? (r : Running) : Option String :=
  Discovery.datagram? r.receiver.device

/-- Stops a receiver: the seconds that it waits at most, if 64 bits hold them. -/
def Running.stop (r : Running) : Option UInt64 :=
  Discovery.waitingBound? r.interval

/-- Starts a receiver with the certificate that its settings name. -/
def run (m : Machine) (s : Settings) (d : Disk) : Except StartError Running × Disk :=
  start m s (TlsSettings.ofSettings s) d

end FileReceiver
