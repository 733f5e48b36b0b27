/-
# JSON values

The values that a document can hold. An object is a list of members in the
order in which it will be written; a document that is read into a value has
its members sorted by key, and of two members with one key the later stays.

Key definitions: `Json.Number`, `Json.Value`, `Json.insertMember`,
`Json.Value.member?`.
-/
import FileReceiver.Number.Binary64

namespace FileReceiver.Json

/-- A number of a document: an integer that fits 64 bits, signed or unsigned,
or a floating-point number. -/
inductive Number where
  | integer (n : Int)
  | real (x : Binary64)
deriving DecidableEq, Repr

inductive Value where
  | null
  | bool (b : Bool)
  | number (n : Number)
  | string (s : String)
  | array (items : List Value)
  | object (members : List (String × Value))

namespace Value

def natural (n : Nat) : Value :=
  number (.integer n)

/-- The member of an object with the given key. -/
def member? (v : Value) (key : String) : Option Value :=
  match v with
  | object members => members.lookup key
  | _ => none

end Value

/-- Puts a member into a list that is sorted by key, in place of one with the same key. -/
def insertMember (key : String) (value : Value) : List (String × Value) → List (String × Value)
  | [] => [(key, value)]
  | (k, v) :: rest =>
    if key < k then (key, value) :: (k, v) :: rest
    else if key = k then (key, value) :: rest
    else (k, v) :: insertMember key value rest

end FileReceiver.Json
