/-
# Names for received files

A sender names its files as it likes. `sanitize` makes of any text a name
that can be stored: the part behind the last separator of either kind,
without control characters, and no reserved, special or blank name; a name
past 255 bytes is cut, before its extension if that is short. `numbered` puts
a number before the extension, for a second file of one name, and
`stagingPath` is where a file stands until it is complete.

Key definitions: `FileName.sanitize`, `FileName.numbered`,
`FileName.stagingPath`.
-/
import FileReceiver.Path

namespace FileReceiver.FileName

/-- The most bytes that a name may have. -/
def maxLength : Nat := 255

/-- An extension with its dot is kept by cutting if it is shorter than this. -/
def longExtension : Nat := 20

/-- The name of a file that has no usable name of its own. -/
def fallback : List Char := "unknown_file".toList

/-- Names that some systems keep for devices. -/
def reservedNames : List (List Char) :=
  ["CON", "PRN", "AUX", "NUL", "COM1", "COM2", "COM3", "COM4", "COM5", "COM6", "COM7", "COM8",
    "COM9", "LPT1", "LPT2", "LPT3", "LPT4", "LPT5", "LPT6", "LPT7", "LPT8", "LPT9"].map
    String.toList

def isSeparator (c : Char) : Bool :=
  c == '/' || c == '\\'

/-- What stands behind the last separator. -/
def lastPart (s : List Char) : List Char :=
  (s.reverse.takeWhile fun c => !isSeparator c).reverse

def isReserved (s : List Char) : Bool :=
  reservedNames.any (Text.equalIgnoringCase s)

/-- A name that would not name a file of its own. -/
def isSpecial (s : List Char) : Bool :=
  s == ['.', '.'] || s == ['.'] || s.all Text.isBlank

/-- The longest start of the text that takes at most `limit` bytes. -/
def fit (limit : Nat) : List Char → List Char
  | [] => []
  | c :: s => if c.utf8Size ≤ limit then c :: fit (limit - c.utf8Size) s else []

/-- The text before the last dot, and the rest from that dot on. -/
def splitLastDot (s : List Char) : Option (List Char × List Char) :=
  if s.contains '.' then
    let tail := (s.reverse.takeWhile (· != '.')).reverse
    some (s.take (s.length - tail.length - 1), '.' :: tail)
  else none

/-- A long name cut to the limit: before its extension if it has a short one behind some text,
else at its end. -/
def truncate (s : List Char) : List Char :=
  match splitLastDot s with
  | some (base, extension) =>
    if base ≠ [] ∧ Text.utf8Length extension < longExtension then
      fit (maxLength - Text.utf8Length extension) base ++ extension
    else fit maxLength s
  | none => fit maxLength s

/-- The name under which a file of the given declared name is stored, as characters. -/
def sanitizeChars (s : List Char) : List Char :=
  let clean := (lastPart s).filter fun c => !Text.isControl c
  if isReserved clean || isSpecial clean then fallback
  else if maxLength < Text.utf8Length clean then truncate clean
  else clean

/-- The name under which a file of the given declared name is stored. -/
def sanitize (name : String) : String :=
  String.ofList (sanitizeChars name.toList)

/-- The name with a number before its extension. A name whose last step has no extension gets the
number at its end. -/
def numbered (name : String) (n : Nat) : String :=
  match (Path.fileName? ⟨name⟩).map fun last => splitName last.toList with
  | some (stem, some extension) =>
    String.ofList (stem ++ '_' :: (Nat.toDigits 10 n ++ '.' :: extension))
  | _ => String.ofList (name.toList ++ '_' :: Nat.toDigits 10 n)

def stagingSuffix : String := ".part"

/-- Where the file of the given final path stands until it is complete. -/
def stagingPath (final : Path) : Path :=
  final.addSuffix stagingSuffix

end FileReceiver.FileName
