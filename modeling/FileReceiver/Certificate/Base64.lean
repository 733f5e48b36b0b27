/-
# Base 64

Bytes are written as digits of six bits, four digits for three bytes. Blanks
may stand anywhere. The digits are read eight at a time: the last eight or
fewer may end in a group of four that equals signs fill up, or in one of two
or three digits with nothing behind it, and the bits that are left over need
not be zero. An equals sign at any other place is an error, which is noticed
when the digits after the eight come to be read; a byte that is no digit is
noticed at once.

Key definitions: `Base64.Fault`, `Base64.Symbol`, `Base64.finish`,
`Base64.decode`.
-/

namespace FileReceiver.Base64

/-- Why text in base 64 stands for no bytes. -/
inductive Fault where
  | badCharacter (b : UInt8)
  /-- An equals sign stands before the last group. -/
  | earlyPadding
  /-- The last group is not filled up as it should be. -/
  | wrongPadding
deriving DecidableEq, Repr

def Fault.message : Fault → String
  | badCharacter b => "InvalidCharacter(" ++ toString b.toNat ++ ")"
  | earlyPadding => "PrematurePadding"
  | wrongPadding => "InvalidTrailingPadding"

/-- A digit or an equals sign. -/
inductive Symbol where
  | digit (value : Nat)
  | pad
deriving DecidableEq, Repr

/-- Whether the bytes may stand anywhere. -/
def isBlank (b : UInt8) : Bool :=
  b == 32 || (9 ≤ b && b ≤ 13)

/-- What a byte stands for that is no blank. -/
def symbol? (b : UInt8) : Option Symbol :=
  let n := b.toNat
  if 65 ≤ n ∧ n ≤ 90 then some (.digit (n - 65))
  else if 97 ≤ n ∧ n ≤ 122 then some (.digit (n - 71))
  else if 48 ≤ n ∧ n ≤ 57 then some (.digit (n + 4))
  else if n = 43 then some (.digit 62)
  else if n = 47 then some (.digit 63)
  else if n = 61 then some .pad
  else none

/-- The three bytes of four digits. -/
def triple (a b c d : Nat) : List UInt8 :=
  let n := ((a * 64 + b) * 64 + c) * 64 + d
  [(n / 65536).toUInt8, (n / 256).toUInt8, n.toUInt8]

/-- The bytes of the last four symbols or fewer. -/
def finishGroup : List Symbol → Except Fault (List UInt8)
  | [] => .ok []
  | [.digit a, .digit b, .digit c, .digit d] => .ok (triple a b c d)
  | [.digit a, .digit b, .digit c, .pad] => .ok ((triple a b c 0).take 2)
  | [.digit a, .digit b, .digit c] => .ok ((triple a b c 0).take 2)
  | [.digit a, .digit b, .pad, .pad] => .ok ((triple a b 0 0).take 1)
  | [.digit a, .digit b] => .ok ((triple a b 0 0).take 1)
  | _ => .error .wrongPadding

/-- The bytes of the last eight symbols or fewer. -/
def finish : List Symbol → Except Fault (List UInt8)
  | a :: b :: c :: d :: e :: rest =>
    match a, b, c, d with
    | .digit a, .digit b, .digit c, .digit d =>
      (finishGroup (e :: rest)).map (triple a b c d ++ ·)
    | _, _, _, _ => .error .earlyPadding
  | last => finishGroup last

/-- The bytes of eight symbols that others follow. -/
def inner? : List Symbol → Option (List UInt8)
  | [.digit a, .digit b, .digit c, .digit d, .digit e, .digit f, .digit g, .digit h] =>
    some (triple a b c d ++ triple e f g h)
  | _ => none

/-- Goes through the text. What has been read of eight symbols and the bytes before them are kept in
reverse. -/
def decodeFrom (symbols : List Symbol) (done : List UInt8) :
    List UInt8 → Except Fault (List UInt8)
  | [] => (finish symbols.reverse).map (done.reverse ++ ·)
  | b :: rest =>
    if isBlank b then decodeFrom symbols done rest
    else
      match symbol? b with
      | none => .error (.badCharacter b)
      | some s =>
        if symbols.length = 8 then
          match inner? symbols.reverse with
          | some bytes => decodeFrom [s] (bytes.reverse ++ done) rest
          | none => .error .earlyPadding
        else decodeFrom (s :: symbols) done rest

/-- The bytes that text in base 64 stands for. -/
def decode (text : List UInt8) : Except Fault (List UInt8) :=
  decodeFrom [] [] text

end FileReceiver.Base64
