/-
# What the routes do

Each handler reads the body of a request, asks the receiver, and makes an
answer of what it gives. A refusal is answered by its status and its message.
Of a request to send, the pairing is looked at before the body.

Key definitions: `ConnectBody`, `SendBody`, `CancelBody`,
`Http.connect`, `Http.requestSend`, `Http.cancelSend`, `Http.fileData`, `Http.ping`.
-/
import FileReceiver.Http.Message
import FileReceiver.Http.Percent
import FileReceiver.Receiver

namespace FileReceiver

open Json (Form Schema Value)

/-- The body of a request to pair. -/
structure ConnectBody where
  pin : Option String := none
  device : Option Value := none

/-- The body of a request to open a session. -/
structure SendBody where
  sessionId : Option String := none
  files : Option Value := none

/-- The body of a request to end a session. -/
structure CancelBody where
  sessionId : Option String := none

def ConnectBody.schema : Schema ConnectBody where
  title := "request to pair"
  default := {}
  fields := [
    Form.text.optional.field "pin_code" ConnectBody.pin fun v b => { b with pin := v },
    Form.anything.optional.field "device_info" ConnectBody.device fun v b => { b with device := v }]

def SendBody.schema : Schema SendBody where
  title := "request to send"
  default := {}
  fields := [
    Form.text.optional.field "session_id" SendBody.sessionId fun v b => { b with sessionId := v },
    Form.anything.optional.field "files" SendBody.files fun v b => { b with files := v }]

def CancelBody.schema : Schema CancelBody where
  title := "request to cancel"
  default := {}
  fields := [
    Form.text.optional.field "session_id" CancelBody.sessionId fun v b =>
      { b with sessionId := v }]

/-- The word for a status in reports. -/
def ChunkStatus.word : ChunkStatus → String
  | receiving => "receiving"
  | completed => "completed"
  | failed => "error"

/-- The written form of a report; whether the hash agreed is left out while it is not known. -/
def ChunkReport.toValue (r : ChunkReport) : Value :=
  .object ([("session_id", .string r.sessionId), ("file_id", .string r.fileId),
    ("status", .string r.result.status.word), ("processed_bytes", .natural r.processed),
    ("message", .string r.result.message)] ++
    match r.hashVerified with
    | none => []
    | some b => [("hash_verified", .bool b)])

/-- The written form of a session that was opened. -/
def Opened.toValue (o : Opened) : Value :=
  .object [("session_id", .string o.sessionId),
    ("accepted_files", .object (o.verdicts.map fun v => (v.1, .bool v.2)))]

namespace Http

/-- The answer to a request that is refused. -/
def refusalAnswer (r : Refusal) : Answer :=
  ⟨r.status, .json r.body⟩

/-- Makes an answer of what an operation gives. -/
def answerOf {α : Type} (served : Served α) (answer : α → Answer) : Answer × Receiver :=
  match served with
  | (.ok a, r) => (answer a, r)
  | (.error e, r) => (refusalAnswer e, r)

/-- The body of a request as a record. -/
def readBody {R : Type} (schema : Schema R) (body : ByteArray) : Except Refusal R :=
  match schema.ofText body.toList with
  | .ok r => .ok r
  | .error _ => .error (.invalid .notJson)

/-- Text that is there and not empty. -/
def nonempty? : Option String → Option String
  | some s => if s = "" then none else some s
  | none => none

/-- The PIN and the identity in the body of a request to pair. -/
def readConnect (body : ByteArray) : Except Refusal (String × Device) := do
  let request ← readBody ConnectBody.schema body
  match nonempty? request.pin, request.device with
  | some pin, some device =>
    match Device.schema.ofValue device with
    | .ok remote => .ok (pin, remote)
    | .error m => .error (.invalid (.badDevice m))
  | _, _ => .error (.invalid .missingPinOrDevice)

/-- The session and the manifest in the body of a request to send. -/
def readSend (body : ByteArray) : Except Refusal (String × Manifest) := do
  let request ← readBody SendBody.schema body
  match nonempty? request.sessionId, request.files with
  | some sessionId, some (.object members) =>
    match FileOffer.manifestOfValue (.object members) with
    | .ok manifest => .ok (sessionId, manifest)
    | .error m => .error (.invalid (.badFiles m))
  | _, _ => .error (.invalid .missingSessionOrFiles)

/-- The session in the body of a request to cancel. -/
def readCancel (body : ByteArray) : Except Refusal String := do
  let request ← readBody CancelBody.schema body
  match nonempty? request.sessionId with
  | some sessionId => .ok sessionId
  | none => .error (.invalid .missingSession)

/-- Pairs. -/
def connect (r : Receiver) (body : ByteArray) : Answer × Receiver :=
  match readConnect body with
  | .error e => (refusalAnswer e, r)
  | .ok (pin, remote) =>
    answerOf (r.pair pin remote) fun p =>
      ⟨200, .json (.object [("device_info", Device.schema.toValue p.device),
        ("message", .string "Connection accepted"), ("success", .bool true)])⟩

/-- Opens a session. -/
def requestSend (r : Receiver) (body : ByteArray) : Answer × Receiver :=
  if r.peer.isNone then (refusalAnswer .notPaired, r)
  else
    match readSend body with
    | .error e => (refusalAnswer e, r)
    | .ok (sessionId, manifest) =>
      answerOf (r.openForPeer sessionId manifest) fun o => ⟨200, .json o.toValue⟩

/-- Ends a session. -/
def cancelSend (r : Receiver) (body : ByteArray) : Answer × Receiver :=
  match readCancel body with
  | .error e => (refusalAnswer e, r)
  | .ok sessionId =>
    answerOf (r.cancelForPeer sessionId) fun c =>
      ⟨200, .json (.object [("message", .string "Session cancelled"),
        ("session_id", .string c.sessionId)])⟩

/-- Takes a chunk for the file of the given id. -/
def fileData (r : Receiver) (sessionId : Option String) (fileId : String) (body : ByteArray) :
    Answer × Receiver :=
  answerOf (r.writeChunk sessionId fileId body) fun report =>
    ⟨if report.result.status = .failed then 500 else 200, .json report.toValue⟩

/-- Tells who the receiver is. -/
def ping (r : Receiver) : Answer :=
  ⟨200, .json (.object [("device_info", Device.schema.toValue r.device),
    ("message", .string "pong")])⟩

end Http

end FileReceiver
