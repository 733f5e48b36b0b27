/-
# Text between quotation marks

Messages show foreign text between double quotes. Inside them a double quote
and a backslash get a backslash, the four common controls have a letter each,
and every other character without a printed form is written as its code in
braces. A single quote stands as it is.

Key definitions: `quotedChar`, `quotedText`, `quotedOption`.
-/
import FileReceiver.Text.Unprintable

namespace FileReceiver.Text

/-- The written form of one character between quotes. -/
def quotedChar (c : Char) : List Char :=
  match c with
  | '"' => ['\\', '"']
  | '\\' => ['\\', '\\']
  | '\n' => ['\\', 'n']
  | '\r' => ['\\', 'r']
  | '\t' => ['\\', 't']
  | '\x00' => ['\\', '0']
  | c =>
    if isUnprintable c then '\\' :: 'u' :: '\x7b' :: (Nat.toDigits 16 c.toNat ++ ['\x7d'])
    else [c]

/-- Text between double quotes. -/
def quotedText (s : String) : String :=
  String.ofList ('"' :: (s.toList.flatMap quotedChar ++ ['"']))

/-- Quoting of text that may be absent. -/
def quotedOption : Option String → String
  | none => "None"
  | some s => "Some(" ++ quotedText s ++ ")"

end FileReceiver.Text
