/-
# Requests and responses

A request as it comes from the transport, and the response that goes back.
Header names are compared without regard to case; of several headers of one
name the first counts.

Key definitions: `Http.Request`, `Http.Content`, `Http.Answer`,
`Http.Response`, `Http.Request.path`, `Http.Request.declaredLength?`.
-/
import FileReceiver.Json.Printer

namespace FileReceiver.Http

structure Request where
  method : String
  target : String
  headers : List (String × ByteArray)
  body : ByteArray

/-- What an answer holds. -/
inductive Content where
  | json (v : Json.Value)
  | text (s : String)
  | nothing

/-- An answer before the headers that all answers have. -/
structure Answer where
  status : Nat
  content : Content

structure Response where
  status : Nat
  headers : List (String × String)
  body : String
deriving DecidableEq, Repr

/-- The bytes that the value of a header may hold if it is to be used as text. -/
def isHeaderText (b : UInt8) : Bool :=
  b == 9 || (0x20 ≤ b && b ≤ 0x7E)

namespace Request

/-- The first header of the given name, which is in lower case. -/
def header? (r : Request) (name : String) : Option ByteArray :=
  (r.headers.find? fun h => h.1.toList.map Char.toLower == name.toList).map Prod.snd

/-- The value of a header, if it is text. -/
def headerText? (r : Request) (name : String) : Option String :=
  match r.header? name with
  | none => none
  | some value =>
    if value.toList.all isHeaderText then
      some (String.ofList (value.toList.map fun b => Char.ofNat b.toNat))
    else none

/-- What follows the scheme and the host of an absolute target. -/
def afterHost : List Char → List Char
  | ':' :: '/' :: '/' :: rest =>
    match rest.dropWhile fun c => c != '/' && c != '?' && c != '#' with
    | '/' :: path => '/' :: path
    | other => '/' :: other
  | _ :: rest => afterHost rest
  | [] => []

/-- The path of the target, without query and fragment. -/
def path (r : Request) : String :=
  let target := r.target.toList
  let fromRoot := if target.head? = some '/' then target else afterHost target
  String.ofList (fromRoot.takeWhile fun c => c != '?' && c != '#')

/-- The length that the request declares for its body, if it is a number of 64 bits. -/
def declaredLength? (r : Request) : Option Nat := do
  let n ← Text.readCount? (← r.headerText? "content-length").toList
  if n < UInt64.size then some n else none

end Request

end FileReceiver.Http
