/-
# Records and their fields

A record is declared once, as its name and the list of its fields; each field
has a key, a form that says which values it takes, and the two functions that
get and set it. Reading from text, reading from a value and writing are then
the same for all records.

A record may be given as an object or as a list in the order of its fields.
What is missing keeps its default. From text, an unknown key is passed over
and a repeated one is refused; from a value, the members are taken in order.
A field of a simple form refuses a list or an object at its first byte, and
reads any other value to its end before it refuses it.

Key definitions: `Json.Form`, `Json.Field`, `Json.Schema`,
`Json.Schema.readText`, `Json.Schema.ofValue`, `Json.Schema.toValue`.
-/
import FileReceiver.Json.Reader

namespace FileReceiver.Json

/-- A form of values: how they are read and written, and whether lists and objects may be among
what is read. -/
structure Form (α : Type) where
  structured : Bool
  decode : Value → Except Mismatch α
  encode : α → Value

namespace Form

/-- Text, under the name by which messages call it. -/
def textNamed (wanted : String) : Form String where
  structured := false
  decode
    | .string s => .ok s
    | v => .error (.wrongType v wanted)
  encode := .string

def text : Form String :=
  textNamed "a string"

/-- Natural numbers below a bound. -/
def boundedNatural (wanted : String) (bound : Nat) (v : Value) : Except Mismatch Nat :=
  match v with
  | .number (.integer n) =>
    if 0 ≤ n ∧ n < bound then .ok n.toNat else .error (.outOfRange n wanted)
  | v => .error (.wrongType v wanted)

def uint16 : Form UInt16 where
  structured := false
  decode v := (boundedNatural "u16" UInt16.size v).map Nat.toUInt16
  encode n := .natural n.toNat

/-- Natural numbers of 64 bits, under the name by which messages call them. -/
def uint64Named (wanted : String) : Form UInt64 where
  structured := false
  decode v := (boundedNatural wanted UInt64.size v).map Nat.toUInt64
  encode n := .natural n.toNat

def uint64 : Form UInt64 :=
  uint64Named "u64"

/-- A count of bytes in memory. -/
def byteCount : Form UInt64 :=
  uint64Named "usize"

/-- Any value. -/
def anything : Form Value where
  structured := true
  decode := .ok
  encode := id

/-- A form whose values may be absent, which is written as null. -/
def optional {α : Type} (form : Form α) : Form (Option α) where
  structured := form.structured
  decode
    | .null => .ok none
    | v => (form.decode v).map some
  encode
    | none => .null
    | some a => form.encode a

end Form

/-- A field of the records `R`. -/
structure Field (R : Type) where
  name : String
  structured : Bool
  fetch : R → Value
  store : Value → R → Except Mismatch R

/-- The field with the given key, form, getter and setter. -/
def Form.field {α R : Type} (form : Form α) (name : String) (get : R → α) (set : α → R → R) :
    Field R where
  name := name
  structured := form.structured
  fetch r := form.encode (get r)
  store v r := (form.decode v).map (set · r)

/-- The declaration of a record: the name by which messages call it, its defaults and its fields
in the order in which they are written. -/
structure Schema (R : Type) where
  title : String
  default : R
  fields : List (Field R)

namespace Schema

variable {R : Type} (schema : Schema R)

/-- Writes a record as an object with its fields in order. -/
def toValue (r : R) : Value :=
  .object (schema.fields.map fun f => (f.name, f.fetch r))

/-- The field with the given key. -/
def field? (key : String) : Option (Field R) :=
  schema.fields.find? (·.name == key)

/-! ## From a value -/

/-- Stores the members of an object one after the other; unknown keys are passed over. -/
def storeMembers (members : List (String × Value)) (r : R) : Except Mismatch R :=
  members.foldlM (fun r m => match schema.field? m.1 with
    | some f => f.store m.2 r
    | none => .ok r) r

/-- Stores the items of a list in the fields of the same places. -/
def storeItems (items : List Value) (r : R) : Except Mismatch R :=
  (schema.fields.zip items).foldlM (fun r p => p.1.store p.2 r) r

/-- Reads a record from a value. -/
def ofValue (v : Value) : Except Mismatch R :=
  match v with
  | .object members => schema.storeMembers members schema.default
  | .array items => do
    let r ← schema.storeItems items schema.default
    if schema.fields.length < items.length then .error (.tooManyItems items.length) else .ok r
  | v => .error (.wrongType v ("struct " ++ schema.title))

/-! ## From text -/

/-- The text of one field stored into the record. -/
def readField (f : Field R) (r : R) : Reader R := fun input => do
  let (value, rest) ← match f.structured, skipBlanks input with
    | true, input => readValue (depthLimit - 1) input
    | false, [] => failAt .endsInValue []
    | false, b :: rest =>
      if b = code '[' then .ok (.array [], b :: rest)
      else if b = code '\x7b' then .ok (.object [], b :: rest)
      else readScalar b rest
  match f.store value r with
  | .ok r => .ok (r, rest)
  | .error m => failAt (.mismatch m) rest

/-- A record that is being read, with the keys met so far. -/
structure Partly (R : Type) where
  record : R
  seen : List String

/-- The place of an error about a whole member: behind the brace that closes the object, if that is
the next thing. -/
def afterClosing (input : List UInt8) : List UInt8 :=
  match skipBlanks input with
  | b :: rest => if b = code '\x7d' then rest else b :: rest
  | [] => []

/-- One member of an object: its value is stored in the field of its key or, without one, passed
over. -/
def readMember (soFar : Partly R) (key : String) : Reader (Partly R) := fun input =>
  match schema.field? key with
  | none => do
    let rest ← skipValue (← readColon input)
    .ok (soFar, rest)
  | some f => do
    if soFar.seen.contains key then
      failAt (.mismatch (.duplicateField key)) (afterClosing input)
    else
      let (record, rest) ← readField f soFar.record (← readColon input)
      .ok (⟨record, key :: soFar.seen⟩, rest)

/-- The items of a list stored in the given fields one after the other, up to the closing bracket.
A list may end early but not go on. -/
def readPositions : List (Field R) → (isFirst : Bool) → R → Reader R
  | [], isFirst, r, input =>
    match skipBlanks input with
    | [] => failAt .endsInList []
    | b :: rest =>
      if b = code ']' then .ok (r, rest)
      else if b = code ',' ∧ !isFirst then
        match skipBlanks rest with
        | c :: rest =>
          if c = code ']' then failAtNext .trailingComma (c :: rest)
          else failAtNext .trailingCharacters (c :: rest)
        | [] => failAt .trailingCharacters []
      else failAtNext .trailingCharacters (b :: rest)
  | f :: fields, isFirst, r, input =>
    match skipBlanks input with
    | [] => failAt .endsInList []
    | b :: rest => do
      if b = code ']' then .ok (r, rest)
      else if isFirst then
        let (r, rest) ← readField f r (b :: rest)
        readPositions fields false r rest
      else if b = code ',' then
        match skipBlanks rest with
        | [] => failAt .endsInValue []
        | c :: rest =>
          if c = code ']' then failAtNext .trailingComma (c :: rest)
          else
            let (r, rest) ← readField f r (c :: rest)
            readPositions fields false r rest
      else failAtNext .expectedListCommaOrEnd (b :: rest)

/-- Reads a record from the start of a document. -/
def readText : Reader R := fun input =>
  match skipBlanks input with
  | [] => failAt .endsInValue []
  | b :: rest => do
    if b = code '[' then readPositions schema.fields true schema.default rest
    else if b = code '\x7b' then
      let (done, rest) ←
        readMembers schema.readMember (rest.length + 1) true ⟨schema.default, []⟩ rest
      .ok (done.record, rest)
    else
      let (v, rest) ← readScalar b rest
      failAt (.mismatch (.wrongType v ("struct " ++ schema.title))) rest

/-- Reads a record from a whole document. -/
def ofText (document : List UInt8) : Except ReadError R :=
  readWhole schema.readText document

end Schema

/-- Reads a value as an object whose members all have one form, in order. -/
def membersOf {α : Type} (decode : Value → Except Mismatch α) (v : Value) :
    Except Mismatch (List (String × α)) :=
  match v with
  | .object members => members.mapM fun m => do pure (m.1, ← decode m.2)
  | v => .error (.wrongType v "a map")

end FileReceiver.Json
