/-
# Writing a value

Two layouts: `compact` puts nothing between the tokens, `pretty` puts each
item and member on a line of its own, two spaces further in than its
container, and a space behind each colon. In a string the quote, the
backslash and the control characters are escaped, and nothing else.

Key definitions: `Json.stringChars`, `Json.Value.compact`, `Json.Value.pretty`.
-/
import FileReceiver.Json.Value
import FileReceiver.Number.Decimal
import FileReceiver.Text.Basic

namespace FileReceiver.Json

/-- The written form of one character of a string. -/
def escapedChar (c : Char) : List Char :=
  match c with
  | '"' => ['\\', '"']
  | '\\' => ['\\', '\\']
  | '\x08' => ['\\', 'b']
  | '\x09' => ['\\', 't']
  | '\x0a' => ['\\', 'n']
  | '\x0c' => ['\\', 'f']
  | '\x0d' => ['\\', 'r']
  | c =>
    if c.toNat < 0x20 then
      ['\\', 'u', '0', '0', Text.hexDigit (c.toNat / 16), Text.hexDigit (c.toNat % 16)]
    else [c]

/-- A string between its quotes. -/
def stringChars (s : String) : List Char :=
  '"' :: (s.toList.flatMap escapedChar ++ ['"'])

def numberChars : Number → List Char
  | .integer n => (toString n).toList
  | .real x => x.readable.toList

/-- A value that is neither a list nor an object. -/
def scalarChars : Value → List Char
  | .null => ['n', 'u', 'l', 'l']
  | .bool true => ['t', 'r', 'u', 'e']
  | .bool false => ['f', 'a', 'l', 's', 'e']
  | .number n => numberChars n
  | .string s => stringChars s
  | .array _ | .object _ => []

namespace Value

mutual

/-- The characters of a value without anything between its tokens. -/
def compactChars : Value → List Char
  | .array items => '[' :: (compactItems items ++ [']'])
  | .object members => '\x7b' :: (compactMembers members ++ ['\x7d'])
  | v => scalarChars v

def compactItems : List Value → List Char
  | [] => []
  | [v] => compactChars v
  | v :: rest => compactChars v ++ ',' :: compactItems rest

def compactMembers : List (String × Value) → List Char
  | [] => []
  | [(key, v)] => stringChars key ++ ':' :: compactChars v
  | (key, v) :: rest => stringChars key ++ ':' :: (compactChars v ++ ',' :: compactMembers rest)

end

/-- A value in one line without blanks. -/
def compact (v : Value) : String :=
  String.ofList v.compactChars

/-- The start of a line that is indented by so many levels. -/
def newLine (level : Nat) : List Char :=
  '\n' :: List.replicate (2 * level) ' '

mutual

/-- The characters of a value that stands at the given level. -/
def prettyChars (level : Nat) : Value → List Char
  | .array [] => ['[', ']']
  | .array items => '[' :: (prettyItems (level + 1) items ++ newLine level ++ [']'])
  | .object [] => ['\x7b', '\x7d']
  | .object members => '\x7b' :: (prettyMembers (level + 1) members ++ newLine level ++ ['\x7d'])
  | v => scalarChars v

def prettyItems (level : Nat) : List Value → List Char
  | [] => []
  | [v] => newLine level ++ prettyChars level v
  | v :: rest => newLine level ++ prettyChars level v ++ ',' :: prettyItems level rest

def prettyMembers (level : Nat) : List (String × Value) → List Char
  | [] => []
  | [(key, v)] => newLine level ++ stringChars key ++ [':', ' '] ++ prettyChars level v
  | (key, v) :: rest =>
    newLine level ++ stringChars key ++ [':', ' '] ++ prettyChars level v ++
      ',' :: prettyMembers level rest

end

/-- A value over several lines. -/
def pretty (v : Value) : String :=
  String.ofList (v.prettyChars 0)

end Value

end FileReceiver.Json
