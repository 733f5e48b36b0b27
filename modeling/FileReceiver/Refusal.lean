/-
# Why a request is refused

Every way in which a receiver turns a request down, with the status by which
the answer is sent and the message that goes into its body.

Key definitions: `Invalidity`, `Refusal`, `Refusal.message`,
`Refusal.status`, `Refusal.body`.
-/
import FileReceiver.Device
import FileReceiver.Json.Printer
import FileReceiver.SystemError

namespace FileReceiver

/-- What is wrong with a request whose fields do not hold what they should. -/
inductive Invalidity where
  | notJson
  | missingPin
  | missingPinOrDevice
  | missingSession
  | missingSessionOrFiles
  | deviceNeeds (need : DeviceNeed)
  | badDevice (m : Json.Mismatch)
  | badFiles (m : Json.Mismatch)
  /-- A fault that is told in words only. -/
  | told (text : String)

namespace Invalidity

def message : Invalidity → String
  | notJson => "Invalid JSON format"
  | missingPin => "Missing pin_code"
  | missingPinOrDevice => "Missing pin_code or device_info"
  | missingSession => "Missing session_id"
  | missingSessionOrFiles => "Missing session_id or files, or invalid files format"
  | deviceNeeds .id => "device_info.device_id is required"
  | deviceNeeds .nickname => "device_info.alias is required"
  | badDevice m => "Invalid device_info: " ++ m.message
  | badFiles m => "Invalid file metadata: " ++ m.message
  | told text => text

end Invalidity

/-- Why a request is refused. -/
inductive Refusal where
  | invalid (reason : Invalidity)
  | wrongPin
  | notPaired
  /-- The session named is not the current one. -/
  | sessionMismatch (expected given : Option String)
  /-- The current session has accepted no file of the id. -/
  | fileNotFound (id : String)
  | disk (e : SystemError)

namespace Refusal

def message : Refusal → String
  | invalid reason => reason.message
  | wrongPin => "Invalid PIN code"
  | notPaired => "No active connection. Please /connect first."
  | sessionMismatch expected given =>
    "Session ID mismatch or invalid session (expected " ++ Text.quotedOption expected ++ ", got " ++
      Text.quotedOption given ++ ")"
  | fileNotFound id => "File ID " ++ id ++ " not found or not accepted in current session"
  | disk e => "I/O error: " ++ e.message

/-- The status of the answer. -/
def status : Refusal → Nat
  | invalid _ | sessionMismatch _ _ => 400
  | wrongPin => 401
  | notPaired => 403
  | fileNotFound _ => 404
  | disk _ => 500

/-- The body of an answer that only holds a message. -/
def messageBody (text : String) : Json.Value :=
  .object [("message", .string text)]

/-- The body of the answer. -/
def body (r : Refusal) : Json.Value :=
  messageBody r.message

end Refusal

end FileReceiver
