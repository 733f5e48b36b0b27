/-
# Sections of encoded bytes

A PEM file holds sections between a line that begins a section of a kind and
the line that ends it; between the two stand bytes in base 64. What stands
outside the sections is ignored, and so are sections of unknown kinds. A line
that begins a section inside another takes over what has been read of that
one. After a fault, reading goes on with the next line, outside any section.

Key definitions: `Pem.Kind`, `Pem.Section`, `Pem.Fault`, `Pem.Reader`,
`Pem.read`.
-/
import FileReceiver.Certificate.Base64
import FileReceiver.Text.Quoted
import FileReceiver.Text.Utf8

namespace FileReceiver.Pem

/-- What a section may hold. -/
inductive Kind where
  | certificate
  | publicKey
  | rsaPrivateKey
  | privateKey
  | ellipticPrivateKey
  | revocationList
  | request
  | helloConfiguration
deriving DecidableEq, Repr

namespace Kind

def all : List Kind :=
  [certificate, publicKey, rsaPrivateKey, privateKey, ellipticPrivateKey, revocationList, request,
    helloConfiguration]

def label : Kind → String
  | certificate => "CERTIFICATE"
  | publicKey => "PUBLIC KEY"
  | rsaPrivateKey => "RSA PRIVATE KEY"
  | privateKey => "PRIVATE KEY"
  | ellipticPrivateKey => "EC PRIVATE KEY"
  | revocationList => "X509 CRL"
  | request => "CERTIFICATE REQUEST"
  | helloConfiguration => "ECHCONFIG"

/-- The kinds of private keys. -/
def isPrivateKey : Kind → Bool
  | rsaPrivateKey | privateKey | ellipticPrivateKey => true
  | _ => false

end Kind

/-- A section: its kind and its bytes. -/
structure Section where
  kind : Kind
  bytes : List UInt8
deriving DecidableEq, Repr

/-- Why something that looks like a section is none. -/
inductive Fault where
  /-- A line that begins a section does not end in five dashes. -/
  | badStart (line : List UInt8)
  /-- The content ends inside a section. -/
  | noEnd (label : List UInt8)
  | badText (f : Base64.Fault)
deriving DecidableEq, Repr

def Fault.message : Fault → String
  | badStart line => "illegal section start: " ++ Text.quotedText (Text.ofBytes line)
  | noEnd label => "section end " ++ Text.quotedText (Text.ofBytes label) ++ " missing"
  | badText f => f.message

/-- A line break ends a line and belongs to it. -/
def isLineBreak (b : UInt8) : Bool :=
  b == 10 || b == 13

/-- One byte more: the line that it belongs to and the lines before it, all in reverse. -/
def addByte (lines : List UInt8 × List (List UInt8)) (b : UInt8) :
    List UInt8 × List (List UInt8) :=
  if isLineBreak b then ([], (b :: lines.1).reverse :: lines.2) else (b :: lines.1, lines.2)

/-- The lines of a content, each with its line break. -/
def lines (content : List UInt8) : List (List UInt8) :=
  let (last, before) := content.foldl addByte ([], [])
  if last = [] then before.reverse else (last.reverse :: before).reverse

/-- The bytes of an ASCII text. -/
def ascii (s : String) : List UInt8 :=
  s.toUTF8.toList

def isDash (b : UInt8) : Bool :=
  b == 45

/-- What a line that may begin a section says. -/
inductive Start where
  | none
  | bad
  | label (text : List UInt8)

/-- Whether a line begins a section. Behind the label there have to be five dashes, among which
blanks and line breaks do not count. -/
def startOf (line : List UInt8) : Start :=
  let opening := ascii "-----BEGIN "
  if opening.isPrefixOf line then
    let inTail (b : UInt8) : Bool := isDash b || isLineBreak b || b == 32
    let tail := line.reverse.takeWhile inTail
    if (tail.filter isDash).length = 5 then
      let behind := (tail.reverse.dropWhile fun b => !isDash b).length
      .label ((line.take (line.length - behind)).drop opening.length)
    else .bad
  else .none

/-- Whether a line ends the section with a label. -/
def ends (label line : List UInt8) : Bool :=
  (ascii "-----END " ++ label ++ ascii "-----").isPrefixOf line

/-- Where reading stands. -/
structure Reader where
  /-- The label of the section that is open. -/
  label : Option (List UInt8) := none
  /-- What has been read of it, in reverse. -/
  text : List UInt8 := []
  /-- What has been found, in reverse. -/
  found : List (Except Fault Section) := []

namespace Reader

/-- The section is over. -/
def close (r : Reader) : Reader :=
  { r with label := none, text := [] }

/-- The section is over, and something has been found. -/
def report (r : Reader) (found : Except Fault Section) : Reader :=
  { found := found :: r.found }

/-- Reads one line more. -/
def addLine (r : Reader) (line : List UInt8) : Reader :=
  match startOf line, r.label with
  | .bad, _ => r.report (.error (.badStart line))
  | .label text, _ => { r with label := some text }
  | .none, none => r
  | .none, some label =>
    if ends label line then
      match Kind.all.find? fun k => ascii k.label == label with
      | none => r.close
      | some kind =>
        match Base64.decode r.text.reverse with
        | .ok bytes => r.report (.ok ⟨kind, bytes⟩)
        | .error f => r.report (.error (.badText f))
    else { r with text := line.reverse ++ r.text }

/-- Everything that has been found at the end of the content. -/
def finish (r : Reader) : List (Except Fault Section) :=
  match r.label with
  | none => r.found.reverse
  | some label => (Except.error (.noEnd label) :: r.found).reverse

end Reader

/-- The sections of a content and the faults between them, in order. -/
def read (content : ByteArray) : List (Except Fault Section) :=
  ((lines content.toList).foldl Reader.addLine {}).finish

end FileReceiver.Pem
