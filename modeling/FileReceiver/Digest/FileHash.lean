/-
# The hash of a file

The hash of a file is the SHA-256 digest of its content in lower-case
hexadecimal. The content is read in pieces of one mebibyte. A hash that a
sender announces agrees with it up to the case of letters and blanks around
it.

Key definitions: `FileHash.reads`, `FileHash.ofReads`, `FileHash.ofContent`,
`FileHash.agree`.
-/
import FileReceiver.Digest.Sha256
import FileReceiver.Text.Basic

namespace FileReceiver.FileHash

/-- The most bytes that one read gives. -/
def bufferSize : Nat := 1024 * 1024

/-- The pieces that reading gives, at most `fuel` of them, from the given place on. -/
def readsFrom (content : ByteArray) : (fuel : Nat) → (start : Nat) → List ByteArray
  | 0, _ => []
  | fuel + 1, start =>
    if content.size ≤ start then []
    else content.extract start (start + bufferSize) :: readsFrom content fuel (start + bufferSize)

/-- The pieces that reading a file to its end gives. -/
def reads (content : ByteArray) : List ByteArray :=
  readsFrom content (content.size / bufferSize + 1) 0

/-- The hash of what the reads give. -/
def ofReads (reads : List ByteArray) : String :=
  String.ofList (Text.hexOfBytes (Sha256.Hasher.ofReads reads))

/-- The hash of a file with the given content. -/
def ofContent (content : ByteArray) : String :=
  ofReads (reads content)

/-- Whether an announced hash agrees with a computed one. -/
def agree (announced computed : String) : Bool :=
  Text.equalIgnoringCase (Text.trimBlanks announced.toList) computed.toList

end FileReceiver.FileHash
