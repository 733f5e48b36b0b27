/-
# Routes

The paths that a receiver knows. A path is matched as it is written, piece by
piece; the id of a file is one piece that is not empty.

Key definitions: `Http.Route`, `Http.Route.ofPath?`, `Http.Route.methods`.
-/
import FileReceiver.Path

namespace FileReceiver.Http

/-- What a path leads to. -/
inductive Route where
  | connect
  | requestSend
  | cancelSend
  | ping
  /-- The data of the file whose id is written in the given segment. -/
  | fileData (segment : String)
deriving DecidableEq, Repr

namespace Route

/-- The route of a path. -/
def ofPath? (path : String) : Option Route :=
  match (Path.pieces path.toList).map String.ofList with
  | ["", "connect"] => some .connect
  | ["", "request-send"] => some .requestSend
  | ["", "cancel-send"] => some .cancelSend
  | ["", "ping"] => some .ping
  | ["", "file_data", segment] => if segment = "" then none else some (.fileData segment)
  | ["", "api", "v1", "file_data", segment] =>
    if segment = "" then none else some (.fileData segment)
  | _ => none

/-- The methods that a route takes. -/
def methods : Route → List String
  | ping => ["GET", "HEAD"]
  | _ => ["POST"]

end Route

end FileReceiver.Http
