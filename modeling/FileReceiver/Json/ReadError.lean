/-
# What can be wrong with a document

A document can be malformed, it can end early, or it can be well formed and
not be what the reader wants. The three groups are told apart by `Category`.
An error also knows how many bytes of the document were left when it arose,
from which its line and column follow.

Key definitions: `Json.Mismatch`, `Json.Defect`, `Json.ReadError`,
`Json.Defect.category`, `Json.Defect.message`, `Json.ReadError.located`.
-/
import FileReceiver.Json.Value
import FileReceiver.Number.Decimal
import FileReceiver.Text.Quoted

namespace FileReceiver.Json

/-- How a well-formed document fails to be what is wanted. -/
inductive Mismatch where
  /-- A value of another type. -/
  | wrongType (found : Value) (wanted : String)
  /-- An integer outside the range of the wanted type. -/
  | outOfRange (n : Int) (wanted : String)
  /-- A list with more items than the record has fields. -/
  | tooManyItems (count : Nat)
  | duplicateField (name : String)
  /-- A number or text that is no file size; the text is already in its written form. -/
  | badSize (written : String)
  /-- A value that is neither a number nor text where a file size is wanted. -/
  | noSize

/-- Everything that can be wrong with a document. -/
inductive Defect where
  | endsInList
  | endsInObject
  | endsInString
  | endsInValue
  | expectedColon
  | expectedListCommaOrEnd
  | expectedObjectCommaOrEnd
  | expectedWord
  | expectedValue
  | badEscape
  | badNumber
  | numberOutOfRange
  | badCodePoint
  | controlInString
  | keyNotString
  | loneSurrogate
  | unpairedSurrogate
  | trailingComma
  | trailingCharacters
  | tooDeep
  | mismatch (m : Mismatch)

/-- The three groups of defects. -/
inductive Category where
  | malformed
  | endsEarly
  | mismatched
deriving DecidableEq, Repr

/-- A defect and the number of bytes that were unread when it was found. -/
structure ReadError where
  defect : Defect
  unread : Nat

/-- A value as messages name it. -/
def Value.described : Value → String
  | .null => "null"
  | .bool b => "boolean `" ++ (if b then "true" else "false") ++ "`"
  | .number (.integer n) => "integer `" ++ toString n ++ "`"
  | .number (.real x) => "floating point `" ++ x.readable ++ "`"
  | .string s => "string " ++ Text.quotedText s
  | .array _ => "sequence"
  | .object _ => "map"

def Mismatch.message : Mismatch → String
  | wrongType found wanted => "invalid type: " ++ found.described ++ ", expected " ++ wanted
  | outOfRange n wanted => "invalid value: integer `" ++ toString n ++ "`, expected " ++ wanted
  | tooManyItems count =>
    "invalid length " ++ toString count ++ ", expected fewer elements in array"
  | duplicateField name => "duplicate field `" ++ name ++ "`"
  | badSize written => "invalid file size " ++ written
  | noSize => "data did not match any variant of untagged enum Size"

namespace Defect

def category : Defect → Category
  | endsInList | endsInObject | endsInString | endsInValue => .endsEarly
  | mismatch _ => .mismatched
  | _ => .malformed

def message : Defect → String
  | endsInList => "EOF while parsing a list"
  | endsInObject => "EOF while parsing an object"
  | endsInString => "EOF while parsing a string"
  | endsInValue => "EOF while parsing a value"
  | expectedColon => "expected `:`"
  | expectedListCommaOrEnd => "expected `,` or `]`"
  | expectedObjectCommaOrEnd => "expected `,` or `\x7d`"
  | expectedWord => "expected ident"
  | expectedValue => "expected value"
  | badEscape => "invalid escape"
  | badNumber => "invalid number"
  | numberOutOfRange => "number out of range"
  | badCodePoint => "invalid unicode code point"
  | controlInString => "control character (\\u0000-\\u001F) found while parsing a string"
  | keyNotString => "key must be a string"
  | loneSurrogate => "lone leading surrogate in hex escape"
  | unpairedSurrogate => "unexpected end of hex escape"
  | trailingComma => "trailing comma"
  | trailingCharacters => "trailing characters"
  | tooDeep => "recursion limit exceeded"
  | mismatch m => m.message

end Defect

/-- The line, from one, and the column of a place in a document: the count of
bytes since the last line break before it. -/
def place (readBytes : List UInt8) : Nat × Nat :=
  readBytes.foldl (fun loc b => if b = 10 then (loc.1 + 1, 0) else (loc.1, loc.2 + 1)) (1, 0)

/-- The message of an error together with its place in the document. -/
def ReadError.located (e : ReadError) (document : List UInt8) : String :=
  let (line, column) := place (document.take (document.length - e.unread))
  e.defect.message ++ " at line " ++ toString line ++ " column " ++ toString column

end FileReceiver.Json
