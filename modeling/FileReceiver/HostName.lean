/-
# What a host is called

A host is called by a name or by an address: four numbers with dots between
them, or eight groups of hexadecimal digits with colons between them, of which
two colons may stand for one or more that are zero, and the last two of which
may be written as four numbers.

Key definitions: `HostName.isShortAddress`, `HostName.groupCount?`,
`HostName.isLongAddress`, `HostName.addressSize?`.
-/
import FileReceiver.Text.Basic

namespace FileReceiver.HostName

/-- One of the four numbers: below 256, and without a zero in front. -/
def isNumber (s : List Char) : Bool :=
  match Text.readNat? s with
  | some n => n < 256 && s.length ≤ 3 && (s.length == 1 || s.head? != some '0')
  | none => false

/-- Four numbers. -/
def isShortAddress (s : List Char) : Bool :=
  let numbers := Text.pieces '.' s
  numbers.length == 4 && numbers.all isNumber

def isGroup (s : List Char) : Bool :=
  1 ≤ s.length && s.length ≤ 4 && s.all fun c => (Text.hexValue? c).isSome

/-- How many groups pieces are, the last of which may be four numbers. -/
def groupsOf? : List (List Char) → Option Nat
  | [] => some 0
  | [last] => if isGroup last then some 1 else if isShortAddress last then some 2 else none
  | piece :: rest => if isGroup piece then (groupsOf? rest).map (· + 1) else none

/-- How many groups a text is. -/
def groupCount? (s : List Char) : Option Nat :=
  if s = [] then some 0 else groupsOf? (Text.pieces ':' s)

/-- What stands before the first two colons and behind them. -/
def cutAtColons : List Char → Option (List Char × List Char)
  | ':' :: ':' :: rest => some ([], rest)
  | c :: rest => (cutAtColons rest).map fun (front, back) => (c :: front, back)
  | [] => none

/-- Eight groups. Four numbers can only be the last ones. -/
def isLongAddress (s : List Char) : Bool :=
  match cutAtColons s with
  | none => groupCount? s == some 8
  | some (front, back) =>
    match groupCount? front, groupCount? back with
    | some m, some n => !front.contains '.' && m + n ≤ 7
    | _, _ => false

/-- How many bytes the address takes that a host is called by. -/
def addressSize? (s : String) : Option Nat :=
  if isShortAddress s.toList then some 4
  else if isLongAddress s.toList then some 16
  else none

end FileReceiver.HostName
