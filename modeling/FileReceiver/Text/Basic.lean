/-
# Classes of characters

What counts as a blank (all of Unicode white space), a control character and
a decimal digit, and the comparison of text without regard to the case of
ASCII letters. Everything is a function on characters or lists of characters;
the modules above turn a `String` into its list where they need one.

Key definitions: `isBlank`, `trimBlanks`, `isBlankText`, `isControl`,
`equalIgnoringCase`, `utf8Length`, `pieces`.
-/

namespace FileReceiver.Text

/-- Unicode white space. -/
def isBlank (c : Char) : Bool :=
  let n := c.toNat
  (0x9 ≤ n && n ≤ 0xD) || n == 0x20 || n == 0x85 || n == 0xA0 || n == 0x1680 ||
    (0x2000 ≤ n && n ≤ 0x200A) || n == 0x2028 || n == 0x2029 || n == 0x202F || n == 0x205F ||
    n == 0x3000

/-- The two blocks of control characters. -/
def isControl (c : Char) : Bool :=
  c.toNat < 0x20 || (0x7F ≤ c.toNat && c.toNat ≤ 0x9F)

/-- Text without the blanks at its two ends. -/
def trimBlanks (s : List Char) : List Char :=
  ((s.dropWhile isBlank).reverse.dropWhile isBlank).reverse

/-- Text that holds nothing but blanks, the empty text included. -/
def isBlankText (s : String) : Bool :=
  s.toList.all isBlank

/-- Equality up to the case of ASCII letters. -/
def equalIgnoringCase (s t : List Char) : Bool :=
  s.map Char.toLower == t.map Char.toLower

/-- The number of bytes that the characters take in UTF-8. -/
def utf8Length : List Char → Nat
  | [] => 0
  | c :: s => c.utf8Size + utf8Length s

/-- The pieces between the separators. -/
def pieces (separator : Char) : List Char → List (List Char)
  | [] => [[]]
  | c :: s =>
    if c = separator then [] :: pieces separator s
    else match pieces separator s with
      | [] => [[c]]
      | piece :: rest => (c :: piece) :: rest

/-- The value of an ASCII digit. -/
def digitValue? (c : Char) : Option Nat :=
  if c.isDigit then some (c.toNat - '0'.toNat) else none

/-- The number that a run of ASCII digits writes; nothing for an empty run or another character. -/
def readNat? (s : List Char) : Option Nat :=
  if s.isEmpty then none
  else s.foldl (fun total c => do pure ((← total) * 10 + (← digitValue? c))) (some 0)

/-- A natural number as the fields of text write one: an optional plus sign, then digits. -/
def readCount? (s : List Char) : Option Nat :=
  match s with
  | '+' :: digits => readNat? digits
  | digits => readNat? digits

/-- The hexadecimal digit of a number below sixteen, in lower case. -/
def hexDigit (n : Nat) : Char :=
  if n < 10 then Char.ofNat ('0'.toNat + n) else Char.ofNat ('a'.toNat + (n - 10))

/-- The value of a hexadecimal digit of either case. -/
def hexValue? (c : Char) : Option Nat :=
  if c.isDigit then some (c.toNat - '0'.toNat)
  else if 'a' ≤ c && c ≤ 'f' then some (c.toNat - 'a'.toNat + 10)
  else if 'A' ≤ c && c ≤ 'F' then some (c.toNat - 'A'.toNat + 10)
  else none

/-- Two hexadecimal digits for each byte. -/
def hexOfBytes (bytes : ByteArray) : List Char :=
  bytes.toList.flatMap fun b => [hexDigit (b.toNat / 16), hexDigit (b.toNat % 16)]

theorem utf8Length_cons (c : Char) (s : List Char) :
    utf8Length (c :: s) = c.utf8Size + utf8Length s := rfl

theorem utf8Length_append (s t : List Char) :
    utf8Length (s ++ t) = utf8Length s + utf8Length t := by
  induction s with
  | nil => simp [utf8Length]
  | cons c s ih => simp [utf8Length, ih, Nat.add_assoc]

end FileReceiver.Text
