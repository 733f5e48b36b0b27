/-
# Certificates made for a run

A receiver without a certificate of its own makes one for the run, with an
elliptic key and the names of the machine. It is read back as every other
certificate is, so it must not be longer than a value of a certificate may be.
Who makes it decides its bytes. The sizes here are those that its parts have
by the encoding, with the usual length where it varies (the two numbers of a
signature are some bytes shorter now and then), so that `fits` approximates
for which names a certificate can be made: a machine may have another say.

Key definitions: `SelfSigned.names`, `SelfSigned.size`, `SelfSigned.fits`.
-/
import FileReceiver.Certificate.X509
import FileReceiver.HostName

namespace FileReceiver.SelfSigned

/-- The names in a certificate: the local one and those of the given ones that can be written, which
are those of ASCII characters other than the space. -/
def names (given : List String) : List String :=
  "localhost" :: given.filter fun s =>
    s != "" && s.toList.all fun c => c.toNat < 128 && c != ' '

/-- How many bytes a value of so many bytes takes with its tag and its length. -/
def withHeader (n : Nat) : Nat :=
  if n < 128 then n + 2 else if n < 256 then n + 3 else if n < 65536 then n + 4 else n + 5

/-- How many bytes a name takes. -/
def nameSize (s : String) : Nat :=
  withHeader ((HostName.addressSize? s).getD s.utf8ByteSize)

/-- How many bytes the part with the names takes. -/
def namesSize (names : List String) : Nat :=
  let value := withHeader (withHeader (names.foldl (fun n s => n + nameSize s) 0))
  withHeader (withHeader (withHeader (5 + value)))

/-- About how many bytes stand in a certificate beside the names: the version, the number, the
algorithm, the issuer, the time, the subject and the key. -/
def bodySize : Nat := 5 + 22 + 12 + 35 + 34 + 35 + 91

/-- About how many bytes stand behind the body: the algorithm and a signature of the usual
length. -/
def signatureSize : Nat := 12 + 74

/-- About how many bytes a certificate has behind its own tag and length. -/
def size (names : List String) : Nat :=
  withHeader (bodySize + namesSize names) + signatureSize

/-- Whether the certificate for the given names can be used, as far as its length goes. -/
def fits (given : List String) : Bool :=
  size (names given) ≤ X509.valueLimit

end FileReceiver.SelfSigned
