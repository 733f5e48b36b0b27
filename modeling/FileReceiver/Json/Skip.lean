/-
# Passing over a value nobody asked for

The value of an unknown key only has to be well formed. It is passed over
with a stack of the containers that are open, so it may be nested to any
depth, its numbers may be out of range, and its strings may hold bytes and
escapes that are no text.

Key definitions: `Json.skipString`, `Json.skipNumber`, `Json.skipValue`.
-/
import FileReceiver.Json.Scan

namespace FileReceiver.Json

/-- Where the reader of a string to be ignored stands; the count is of hexadecimal digits left,
and the flag says whether all so far were digits. -/
inductive SkipState where
  | text
  | escape
  | hex (left : Nat) (valid : Bool)
deriving DecidableEq, Repr

/-- Passes over a string up to its closing quote. -/
def skipStringFrom (state : SkipState) : List UInt8 → Except ReadError (List UInt8)
  | [] => failAt .endsInString []
  | b :: rest =>
    match state with
    | .text =>
      if b = code '"' then .ok rest
      else if b = code '\\' then skipStringFrom .escape rest
      else if b < 0x20 then failAt .controlInString (b :: rest)
      else skipStringFrom .text rest
    | .escape =>
      if b = code 'u' then skipStringFrom (.hex 3 true) rest
      else if (escapedByte? b).isSome then skipStringFrom .text rest
      else failAt .badEscape rest
    | .hex left valid =>
      let valid := valid && (Text.hexValue? (Char.ofNat b.toNat)).isSome
      match left with
      | left + 1 => skipStringFrom (.hex left valid) rest
      | 0 => if valid then skipStringFrom .text rest else failAt .badEscape rest

/-- Passes over a string after its opening quote. -/
def skipString (input : List UInt8) : Except ReadError (List UInt8) :=
  skipStringFrom .text input

/-- The digits of an exponent, at least one. -/
def skipExponent (input : List UInt8) : Except ReadError (List UInt8) :=
  match (readExponentSign input).2 with
  | [] => failAt .badNumber []
  | b :: rest => if isDigitByte b then .ok (rest.dropWhile isDigitByte) else failAt .badNumber rest

/-- An exponent, if one follows. -/
def skipScale (input : List UInt8) : Except ReadError (List UInt8) :=
  match input with
  | b :: rest => if b = code 'e' ∨ b = code 'E' then skipExponent rest else .ok input
  | [] => .ok input

/-- What may follow the digits before the point. -/
def skipNumberTail (input : List UInt8) : Except ReadError (List UInt8) :=
  match input with
  | b :: rest =>
    if b = code '.' then
      if startsWithDigit rest then skipScale (rest.dropWhile isDigitByte)
      else failAtNext .badNumber rest
    else skipScale input
  | [] => .ok input

/-- Passes over a number after its sign. -/
def skipNumber (input : List UInt8) : Except ReadError (List UInt8) :=
  match input with
  | [] => failAt .badNumber []
  | b :: rest =>
    if b = code '0' then
      if startsWithDigit rest then failAtNext .badNumber rest else skipNumberTail rest
    else if isDigitByte b then skipNumberTail (rest.dropWhile isDigitByte)
    else failAt .badNumber rest

/-- The kind of a container that is open. -/
inductive Container where
  | list
  | object
deriving DecidableEq, Repr

/-- What is expected next while a value is passed over. -/
inductive SkipStage where
  /-- A value. -/
  | value
  /-- The first member of the innermost container, or its end. -/
  | first
  /-- A comma or the end of the innermost container; with none open the value is complete. -/
  | next
deriving DecidableEq, Repr

/-- The end of input inside an open container. -/
def Container.endsIn : Container → Defect
  | list => .endsInList
  | object => .endsInObject

/-- The byte that ends a container. -/
def Container.closing : Container → UInt8
  | list => code ']'
  | object => code '\x7d'

/-- Neither a comma nor the end of an open container. -/
def Container.expectedCommaOrEnd : Container → Defect
  | list => .expectedListCommaOrEnd
  | object => .expectedObjectCommaOrEnd

/-- The key of a member of an object, with its colon; nothing for an item of a list. -/
def skipKey (container : Container) (input : List UInt8) : Except ReadError (List UInt8) :=
  match container with
  | .list => .ok input
  | .object =>
    match skipBlanks input with
    | [] => failAt .endsInObject []
    | b :: rest => do
      if b = code '"' then
        let afterKey ← skipString rest
        match skipBlanks afterKey with
        | [] => failAt .endsInObject []
        | c :: rest => if c = code ':' then .ok rest else failAtNext .expectedColon (c :: rest)
      else failAtNext .keyNotString (b :: rest)

/-- A value that is not a container: what is left after it, or nothing if a container opens. -/
def skipScalar (b : UInt8) (rest : List UInt8) : Except ReadError (List UInt8) :=
  if b = code 'n' then readWord ['u', 'l', 'l'] rest
  else if b = code 't' then readWord ['r', 'u', 'e'] rest
  else if b = code 'f' then readWord ['a', 'l', 's', 'e'] rest
  else if b = code '"' then skipString rest
  else if b = code '-' then skipNumber rest
  else if isDigitByte b then skipNumber (b :: rest)
  else failAtNext .expectedValue (b :: rest)

/-- One stage after another, at most `fuel` of them, with the open containers innermost first. -/
def skipStages : (fuel : Nat) → SkipStage → List Container → List UInt8 →
    Except ReadError (List UInt8)
  | 0, _, _, input => failAt .endsInValue input
  | fuel + 1, .value, containers, input =>
    match skipBlanks input with
    | [] => failAt .endsInValue []
    | b :: rest =>
      if b = code '[' then skipStages fuel .first (.list :: containers) rest
      else if b = code '\x7b' then skipStages fuel .first (.object :: containers) rest
      else do skipStages fuel .next containers (← skipScalar b rest)
  | _ + 1, .next, [], input => .ok input
  | _ + 1, .first, [], input => .ok input
  | fuel + 1, .first, container :: outer, input =>
    match skipBlanks input with
    | [] => failAt container.endsIn []
    | b :: rest =>
      if b = container.closing then skipStages fuel .next outer rest
      else do skipStages fuel .value (container :: outer) (← skipKey container (b :: rest))
  | fuel + 1, .next, container :: outer, input =>
    match skipBlanks input with
    | [] => failAt container.endsIn []
    | b :: rest =>
      if b = code ',' then do
        skipStages fuel .value (container :: outer) (← skipKey container rest)
      else if b = container.closing then skipStages fuel .next outer rest
      else failAtNext container.expectedCommaOrEnd (b :: rest)

/-- Passes over one value. Every two stages take at least a byte, which bounds their number. -/
def skipValue (input : List UInt8) : Except ReadError (List UInt8) :=
  skipStages (2 * input.length + 2) .value [] input

end FileReceiver.Json
