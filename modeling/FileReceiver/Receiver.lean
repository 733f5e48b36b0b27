/-
# The receiver

A receiver has a device identity, a PIN and a folder for what it receives. A
peer pairs with it by the PIN; the last peer to pair is the connected one. A
connected peer opens a session, in place of the current one, sends the chunks
of its files, and may cancel it. The disk is part of the receiver's state.

Every operation gives its result together with the receiver after it, also
when it is refused. Opening and cancelling are there twice: as such, and
behind the check that a peer is connected.

Key definitions: `Receiver`, `Receiver.pair`, `Receiver.openSession`,
`Receiver.openForPeer`, `Receiver.writeChunk`, `Receiver.cancelSession`,
`Receiver.cancelForPeer`, `Operation`, `Receiver.perform`.
-/
import FileReceiver.Refusal
import FileReceiver.Session.Basic

namespace FileReceiver

structure Receiver where
  device : Device
  pin : String
  outputFolder : Path
  policy : Policy := Policy.everything
  /-- The connected peer. -/
  peer : Option Device := none
  session : Option Session := none
  disk : Disk

/-- A successful pairing: the identity of the receiver, and the peer that was connected before. -/
structure Paired where
  device : Device
  replaced : Option Device
deriving DecidableEq, Repr

/-- A session that was opened: whether each file is accepted, and the id of the session before. -/
structure Opened where
  sessionId : String
  verdicts : List (String × Bool)
  replaced : Option String
deriving DecidableEq, Repr

/-- A session that was cancelled, and how many staging files were removed. -/
structure Cancelled where
  sessionId : String
  removed : Nat
deriving DecidableEq, Repr

/-- What an operation gives: its result and the receiver after it. -/
abbrev Served (α : Type) := Except Refusal α × Receiver

namespace Receiver

/-- Lets a peer pair that knows the PIN and names itself. -/
def pair (r : Receiver) (pin : String) (remote : Device) : Served Paired :=
  if pin = "" then (.error (.invalid .missingPin), r)
  else
    match remote.missing? with
    | some need => (.error (.invalid (.deviceNeeds need)), r)
    | none =>
      if pin ≠ r.pin then (.error .wrongPin, r)
      else (.ok ⟨r.device, r.peer⟩, { r with peer := some remote })

/-- Makes the folder for received files, unless it is there. -/
def prepareFolder (folder : Path) (d : Disk) : Outcome Unit :=
  match d.probe folder with
  | (true, d) => (.ok (), d)
  | (false, d) => d.makeFolders folder

/-- The id of the current session. -/
def sessionId? (r : Receiver) : Option String :=
  r.session.map Session.id

/-- Opens a session in place of the current one. -/
def openSession (r : Receiver) (sessionId : String) (manifest : Manifest) : Served Opened :=
  if sessionId = "" then (.error (.invalid .missingSessionOrFiles), r)
  else
    match prepareFolder r.outputFolder r.disk with
    | (.error e, d) => (.error (.disk e), { r with disk := d })
    | (.ok (), d) =>
      let admission := Admission.ofManifest r.policy r.outputFolder manifest
      (.ok ⟨sessionId, admission.verdicts.reverse, r.sessionId?⟩,
        { r with session := some ⟨sessionId, admission.accepted.reverse⟩, disk := d })

/-- Opens a session for the connected peer. -/
def openForPeer (r : Receiver) (sessionId : String) (manifest : Manifest) : Served Opened :=
  if r.peer.isNone then (.error .notPaired, r) else r.openSession sessionId manifest

/-- Takes a chunk of a file of the current session. -/
def writeChunk (r : Receiver) (sessionId : Option String) (fileId : String) (bytes : ByteArray) :
    Served ChunkReport :=
  match r.session with
  | none => (.error (.sessionMismatch none sessionId), r)
  | some session =>
    if sessionId ≠ some session.id then (.error (.sessionMismatch (some session.id) sessionId), r)
    else
      match session.file? fileId with
      | none => (.error (.fileNotFound fileId), r)
      | some t =>
        let (result, t, d) := t.receive bytes r.disk
        (.ok (t.report session.id result), { r with session := some (session.update t), disk := d })

/-- Ends the current session and removes what is not complete. -/
def cancelSession (r : Receiver) (sessionId : String) : Served Cancelled :=
  match r.session with
  | none => (.error (.sessionMismatch none (some sessionId)), r)
  | some session =>
    if session.id ≠ sessionId then
      (.error (.sessionMismatch (some session.id) (some sessionId)), r)
    else
      let (removed, d) := Session.removeStaging session.files r.disk
      (.ok ⟨sessionId, removed⟩, { r with session := none, disk := d })

/-- Ends the current session for the connected peer. -/
def cancelForPeer (r : Receiver) (sessionId : String) : Served Cancelled :=
  if r.peer.isNone then (.error .notPaired, r) else r.cancelSession sessionId

/-- The record of a file of the current session. -/
def file? (r : Receiver) (fileId : String) : Option Transfer :=
  r.session.bind (·.file? fileId)

end Receiver

/-- What a peer can ask of a receiver. -/
inductive Operation where
  | pair (pin : String) (remote : Device)
  | openSession (sessionId : String) (manifest : Manifest)
  | writeChunk (sessionId : Option String) (fileId : String) (bytes : ByteArray)
  | cancelSession (sessionId : String)

/-- What a receiver answers when it does not refuse. -/
inductive Reply where
  | paired (p : Paired)
  | opened (o : Opened)
  | report (c : ChunkReport)
  | cancelled (c : Cancelled)

namespace Receiver

/-- Does what a peer asks. -/
def perform (r : Receiver) : Operation → Served Reply
  | .pair pin remote => (r.pair pin remote).map (·.map .paired) id
  | .openSession sessionId manifest => (r.openForPeer sessionId manifest).map (·.map .opened) id
  | .writeChunk sessionId fileId bytes =>
    (r.writeChunk sessionId fileId bytes).map (·.map .report) id
  | .cancelSession sessionId => (r.cancelForPeer sessionId).map (·.map .cancelled) id

/-- The receiver after a run of operations. -/
def run (r : Receiver) (operations : List Operation) : Receiver :=
  operations.foldl (fun r o => (r.perform o).2) r

end Receiver

end FileReceiver
