/-
# Sessions

A session is opened with a manifest. Its files are taken in the order of
their ids, so that clashing names always get the same numbers; each is
accepted or refused by a policy that sees the transfer made for it, and only
an accepted file claims its paths.

Key definitions: `Session`, `Policy`, `Admission`, `Admission.ofManifest`,
`Session.file?`, `Session.update`, `Session.removeStaging`.
-/
import FileReceiver.Transfer.Chunk

namespace FileReceiver

/-- The files that a peer may send now. -/
structure Session where
  id : String
  files : List Transfer
deriving DecidableEq, Repr

/-- Which files are accepted. -/
abbrev Policy := Transfer → Bool

/-- Accepts every file. -/
def Policy.everything : Policy := fun _ => true

/-- A manifest that is being gone through. -/
structure Admission where
  claims : Claims := []
  /-- The accepted transfers, the last one first. -/
  accepted : List Transfer := []
  /-- Whether each file was accepted, the last one first. -/
  verdicts : List (String × Bool) := []

namespace Admission

/-- Decides about one file. -/
def addFile (policy : Policy) (folder : Path) (soFar : Admission) (entry : String × FileOffer) :
    Admission :=
  let t := Transfer.ofOffer entry.1 entry.2 folder soFar.claims
  if policy t then
    { claims := soFar.claims.add t
      accepted := t :: soFar.accepted
      verdicts := (entry.1, true) :: soFar.verdicts }
  else { soFar with verdicts := (entry.1, false) :: soFar.verdicts }

/-- The entries of a manifest in the order of their ids. -/
def ordered (manifest : Manifest) : Manifest :=
  manifest.mergeSort fun x y => x.1 ≤ y.1

/-- Decides about all files of a manifest. -/
def ofManifest (policy : Policy) (folder : Path) (manifest : Manifest) : Admission :=
  (ordered manifest).foldl (addFile policy folder) {}

end Admission

namespace Session

/-- The file with the given id. -/
def file? (s : Session) (fileId : String) : Option Transfer :=
  s.files.find? (·.fileId == fileId)

/-- The session with the transfer in place of the one of the same id. -/
def update (s : Session) (t : Transfer) : Session :=
  { s with files := s.files.map fun old => if old.fileId = t.fileId then t else old }

/-- Removes the staging files of what is not complete: how many there were, and the disk after it.
A file that cannot be removed stays. -/
def removeStaging : List Transfer → Disk → Nat × Disk
  | [], d => (0, d)
  | t :: rest, d =>
    if t.completed then removeStaging rest d
    else
      match d.remove t.stagingPath with
      | (.ok (), d) =>
        let (count, d) := removeStaging rest d
        (count + 1, d)
      | (.error _, d) => removeStaging rest d

end Session

end FileReceiver
