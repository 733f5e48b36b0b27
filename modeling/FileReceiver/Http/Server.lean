/-
# Serving a request

A request goes through the same stations whatever it asks. A request for the
options is answered before anything is looked at. Then a declared length over
the limit is turned down, then the route is found, then the method is
compared with those of the route, and then a body that turns out longer than
allowed is turned down; only after that does a handler see it. All answers
allow any origin and close the connection; an answer to a request for the
head alone loses its body.

Key definitions: `Http.dispatch`, `Http.respond`.
-/
import FileReceiver.Http.Handlers
import FileReceiver.Http.Route

namespace FileReceiver.Http

/-- The header that names the session of a chunk. -/
def sessionHeader : String := "x-session-id"

/-- The answer to a request whose declared length is over the limit. -/
def declaredTooLong : Answer := ⟨413, .text "length limit exceeded"⟩

/-- The answer to a request whose body is over the limit. -/
def bodyTooLong : Answer :=
  ⟨413, .text "Failed to buffer the request body: length limit exceeded"⟩

/-- The answer to a file id that is not UTF-8. -/
def badFileId : Answer := ⟨400, .text "Invalid URL: Invalid UTF-8 in `file_id`"⟩

/-- The answer to a path that leads nowhere. -/
def notFound : Answer := ⟨404, .json (Refusal.messageBody "Endpoint not found")⟩

/-- Whether the declared length of a request is over the limit. -/
def exceeds (limit : Nat) (q : Request) : Bool :=
  match q.declaredLength? with
  | some length => limit < length
  | none => false

/-- How many bytes a handler may read: no more than the request declares. -/
def bodyLimit (limit : Nat) (q : Request) : Nat :=
  match q.declaredLength? with
  | some length => min limit length
  | none => limit

/-- Hands the body on unless it is too long. -/
def withBody (limit : Nat) (r : Receiver) (q : Request) (handler : ByteArray → Answer × Receiver) :
    Answer × Receiver :=
  if bodyLimit limit q < q.body.size then (bodyTooLong, r) else handler q.body

/-- Lets the handler of a route answer. -/
def handle (limit : Nat) (r : Receiver) (q : Request) : Route → Answer × Receiver
  | .connect => withBody limit r q (connect r)
  | .requestSend => withBody limit r q (requestSend r)
  | .cancelSend => withBody limit r q (cancelSend r)
  | .ping => (ping r, r)
  | .fileData segment =>
    match Percent.decodeText? segment with
    | none => (badFileId, r)
    | some fileId => withBody limit r q (fileData r (q.headerText? sessionHeader) fileId)

/-- Finds what answers a request that is not about options. -/
def dispatch (limit : Nat) (r : Receiver) (q : Request) : Answer × Receiver :=
  if exceeds limit q then (declaredTooLong, r)
  else
    match Route.ofPath? q.path with
    | none => (notFound, r)
    | some route =>
      if route.methods.contains q.method then handle limit r q route
      else (⟨405, .nothing⟩, r)

/-- The headers that every response has. -/
def standingHeaders : List (String × String) :=
  [("access-control-allow-origin", "*"), ("connection", "close"),
    ("vary", "origin, access-control-request-method, access-control-request-headers")]

/-- The headers of a response about options. -/
def optionHeaders : List (String × String) :=
  [("access-control-allow-headers", "content-type,x-session-id,x-file-id,x-chunk-offset"),
    ("access-control-allow-methods", "POST,GET,OPTIONS")]

/-- The header that names the methods of a known path, on responses to a method that it does not
take. -/
def allowHeaders (q : Request) : List (String × String) :=
  match Route.ofPath? q.path with
  | none => []
  | some route =>
    if route.methods.contains q.method then [] else [("allow", ",".intercalate route.methods)]

/-- The header that tells the type of the content. -/
def contentHeaders : Content → List (String × String)
  | .json _ => [("content-type", "application/json; charset=utf-8")]
  | .text _ => [("content-type", "text/plain; charset=utf-8")]
  | .nothing => []

def Content.written : Content → String
  | json v => v.compact
  | text s => s
  | nothing => ""

/-- Puts the headers to an answer. -/
def finish (q : Request) (a : Answer) (more : List (String × String)) : Response where
  status := a.status
  headers := standingHeaders ++ more ++ allowHeaders q ++ contentHeaders a.content
  body := if q.method = "HEAD" then "" else a.content.written

/-- The response to a request, and the receiver after it. -/
def respond (limit : Nat) (r : Receiver) (q : Request) : Response × Receiver :=
  if q.method = "OPTIONS" then (finish q ⟨200, .nothing⟩ optionHeaders, r)
  else
    let (answer, r) := dispatch limit r q
    (finish q answer [], r)

end FileReceiver.Http
