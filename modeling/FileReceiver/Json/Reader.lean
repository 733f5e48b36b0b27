/-
# Reading a value

A value that is kept may be nested to a depth of 127. Lists and objects share
their reader with the records of the library: `readItems` goes through the
items of a list and `readMembers` through the members of an object, each with
a function that says what becomes of an item or member.

Key definitions: `Json.readScalar`, `Json.readItems`, `Json.readMembers`,
`Json.readValue`, `Json.readDocument`.
-/
import FileReceiver.Json.Skip

namespace FileReceiver.Json

/-- How deep lists and objects may be nested. -/
def depthLimit : Nat := 127

/-- A value that is neither a list nor an object, from its first byte. -/
def readScalar (b : UInt8) : Reader Value := fun rest => do
  if b = code 'n' then
    .ok (.null, ← readWord ['u', 'l', 'l'] rest)
  else if b = code 't' then
    .ok (.bool true, ← readWord ['r', 'u', 'e'] rest)
  else if b = code 'f' then
    .ok (.bool false, ← readWord ['a', 'l', 's', 'e'] rest)
  else if b = code '"' then
    let (s, rest) ← readString rest
    .ok (.string s, rest)
  else if b = code '-' then
    let (n, rest) ← readNumber true rest
    .ok (.number n, rest)
  else if isDigitByte b then
    let (n, rest) ← readNumber false (b :: rest)
    .ok (.number n, rest)
  else failAtNext .expectedValue (b :: rest)

/-- The items of a list after its bracket, gathered by `add`, up to the closing bracket, which is
taken. `isFirst` says that no item has been read yet. -/
def readItems {α : Type} (add : α → Reader α) :
    (fuel : Nat) → (isFirst : Bool) → α → Reader α
  | 0, _, _, input => failAt .endsInList input
  | fuel + 1, isFirst, soFar, input =>
    match skipBlanks input with
    | [] => failAt .endsInList []
    | b :: rest => do
      if b = code ']' then .ok (soFar, rest)
      else if isFirst then
        let (soFar, rest) ← add soFar (b :: rest)
        readItems add fuel false soFar rest
      else if b = code ',' then
        match skipBlanks rest with
        | [] => failAt .endsInValue []
        | c :: rest =>
          if c = code ']' then failAtNext .trailingComma (c :: rest)
          else
            let (soFar, rest) ← add soFar (c :: rest)
            readItems add fuel false soFar rest
      else failAtNext .expectedListCommaOrEnd (b :: rest)

/-- The colon behind a key. -/
def readColon (input : List UInt8) : Except ReadError (List UInt8) :=
  match skipBlanks input with
  | [] => failAt .endsInObject []
  | b :: rest => if b = code ':' then .ok rest else failAtNext .expectedColon (b :: rest)

/-- The members of an object after its brace, gathered by `add`, which gets the key and reads the
colon and the value, up to the closing brace, which is taken. -/
def readMembers {α : Type} (add : α → String → Reader α) :
    (fuel : Nat) → (isFirst : Bool) → α → Reader α
  | 0, _, _, input => failAt .endsInObject input
  | fuel + 1, isFirst, soFar, input =>
    match skipBlanks input with
    | [] => failAt .endsInObject []
    | b :: rest => do
      if b = code '\x7d' then .ok (soFar, rest)
      else if isFirst then
        if b = code '"' then
          let (key, rest) ← readString rest
          let (soFar, rest) ← add soFar key rest
          readMembers add fuel false soFar rest
        else failAtNext .keyNotString (b :: rest)
      else if b = code ',' then
        match skipBlanks rest with
        | [] => failAt .endsInValue []
        | c :: rest =>
          if c = code '"' then
            let (key, rest) ← readString rest
            let (soFar, rest) ← add soFar key rest
            readMembers add fuel false soFar rest
          else if c = code '\x7d' then failAtNext .trailingComma (c :: rest)
          else failAtNext .keyNotString (c :: rest)
      else failAtNext .expectedObjectCommaOrEnd (b :: rest)

/-- A value, in which lists and objects may be nested to the given depth. -/
def readValue : (depth : Nat) → Reader Value
  | 0, input =>
    match skipBlanks input with
    | [] => failAt .endsInValue []
    | b :: rest =>
      if b = code '[' ∨ b = code '\x7b' then failAtNext .tooDeep (b :: rest) else readScalar b rest
  | depth + 1, input =>
    match skipBlanks input with
    | [] => failAt .endsInValue []
    | b :: rest => do
      if b = code '[' then
        let addItem := fun (items : List Value) input => do
          let (item, rest) ← readValue depth input
          .ok (item :: items, rest)
        let (items, rest) ← readItems addItem (rest.length + 1) true [] rest
        .ok (.array items.reverse, rest)
      else if b = code '\x7b' then
        let addMember := fun (members : List (String × Value)) key input => do
          let afterColon ← readColon input
          let (value, rest) ← readValue depth afterColon
          .ok (insertMember key value members, rest)
        let (members, rest) ← readMembers addMember (rest.length + 1) true [] rest
        .ok (.object members, rest)
      else readScalar b rest

/-- Applies a reader to a whole document, after which only blanks may follow. -/
def readWhole {α : Type} (reader : Reader α) (document : List UInt8) : Except ReadError α := do
  let (result, rest) ← reader document
  match skipBlanks rest with
  | [] => .ok result
  | extra => failAtNext .trailingCharacters extra

/-- A document read into a value. -/
def readDocument (document : List UInt8) : Except ReadError Value :=
  readWhole (readValue depthLimit) document

end FileReceiver.Json
