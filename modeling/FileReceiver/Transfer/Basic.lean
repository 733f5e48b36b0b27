/-
# Transfers

A transfer is the record of one file of a session: what its sender declared,
where it will stand, where it stands until it is complete, and how much of it
has come. It is made from an offer. A name that is already taken in the
session is numbered: the first number counts for which neither the final path
nor the staging path is claimed by another file.

Key definitions: `Transfer`, `Claims`, `Claims.free`, `candidate`,
`leastFree`, `Transfer.ofOffer`.
-/
import FileReceiver.FileName
import FileReceiver.FileOffer

namespace FileReceiver

/-- The record of one file of a session. -/
structure Transfer where
  fileId : String
  declaredName : String
  declaredSize : UInt64 := 0
  kind : String
  hash : Option String := none
  finalPath : Path
  stagingPath : Path
  /-- The bytes that have been counted. -/
  received : Nat := 0
  completed : Bool := false
  /-- Whether the announced hash agreed, once it has been compared. -/
  hashVerified : Option Bool := none
deriving DecidableEq, Repr

/-- The paths that the files of a session claim, by their components. -/
abbrev Claims := List (List Component)

namespace Claims

/-- Whether a file can stand at a path: neither the path nor its staging path is claimed. -/
def free (claims : Claims) (p : Path) : Bool :=
  !claims.contains p.components && !claims.contains (FileName.stagingPath p).components

/-- The claims together with those of one more transfer. -/
def add (claims : Claims) (t : Transfer) : Claims :=
  t.finalPath.components :: t.stagingPath.components :: claims

end Claims

/-- The path that the `n`-th try gives a name in a folder; the first try is the plain name. -/
def candidate (folder : Path) (name : String) (n : Nat) : Path :=
  folder.join (if n = 0 then name else FileName.numbered name n)

/-- The first free candidate from the `n`-th on, among at most `fuel` more. -/
def leastFreeFrom (claims : Claims) (folder : Path) (name : String) : (fuel : Nat) → (n : Nat) →
    Path
  | 0, n => candidate folder name n
  | fuel + 1, n =>
    if claims.free (candidate folder name n) then candidate folder name n
    else leastFreeFrom claims folder name fuel (n + 1)

/-- The first free candidate. Every claim rules out two candidates at most, as a final path and as
a staging path, so one of the first `2 * claims.length + 1` is free. -/
def leastFree (claims : Claims) (folder : Path) (name : String) : Path :=
  leastFreeFrom claims folder name (2 * claims.length) 0

namespace Transfer

/-- The kind of a file whose sender names none. -/
def defaultKind : String := "generic"

/-- The name that a file is declared under; without one it is named after its id. -/
def declaredNameOf (fileId : String) (offer : FileOffer) : String :=
  match offer.name with
  | some name => if name = "" then fileId ++ "_unknown" else name
  | none => fileId ++ "_unknown"

/-- The transfer of an offered file into a folder, with a path that nobody claims. -/
def ofOffer (fileId : String) (offer : FileOffer) (folder : Path) (claims : Claims) : Transfer :=
  let declaredName := declaredNameOf fileId offer
  let finalPath := leastFree claims folder (FileName.sanitize declaredName)
  { fileId, declaredName, finalPath
    declaredSize := offer.size
    kind := offer.kind.getD defaultKind
    hash := offer.hash.filter fun h => !Text.isBlankText h
    stagingPath := FileName.stagingPath finalPath }

end Transfer

end FileReceiver
