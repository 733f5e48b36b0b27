/-
# From paths to locations

A path is followed from the root or the working folder, one step at a time:
each name but the last has to be a folder or a link that leads to one. A link
is replaced by the path that it holds, at most forty times for one path. What
becomes of the last name is up to the call: it may be left alone, it may be
looked up and followed if it is a link, and a call that is ready to make a
file refuses a name with a separator behind it before it looks it up.

Key definitions: `Place`, `LastName`, `Disk.lookUp`, `Disk.walk`,
`Disk.resolve`.
-/
import FileReceiver.Disk.Basic
import FileReceiver.Path

namespace FileReceiver

/-- How many links one path may lead through. -/
def linkLimit : Nat := 40

/-- The most bytes that a path may have. -/
def pathLimit : Nat := 4095

/-- The most bytes that a name may have. -/
def nameLimit : Nat := 255

/-- Where a path leads: a folder and the last step, which is taken from there. -/
structure Place where
  folder : Location
  last : Component
  /-- A separator stands behind the last name, so that only a folder can be meant. -/
  wantsFolder : Bool
deriving DecidableEq, Repr

/-- The location that the last step leads to. -/
def Place.location (place : Place) : Location :=
  match place.last with
  | .root => []
  | .here => place.folder
  | .up => place.folder.dropLast
  | .name s => place.folder ++ [s]

/-- What a call does with the last name of a path. -/
inductive LastName where
  /-- It is left alone, and need not be there. -/
  | kept
  /-- A link in its place is followed. -/
  | followed
  /-- A link in its place is followed, and a file is made if nothing is there. -/
  | made
deriving DecidableEq, Repr

namespace Disk

/-- The steps of a path behind its start. -/
def stepsOf (text : String) : List Component :=
  (Path.pieces text.toList).filterMap fun piece =>
    if piece = ['.'] then some .here else Path.component? piece

/-- Where a path starts. -/
def startOf (text : String) (folder : Location) : Location :=
  if text.toList.head? = some '/' then [] else folder

/-- Whether the path ends in a separator. -/
def endsInSeparator (text : String) : Bool :=
  text.toList.getLast? == some '/'

/-- What has a name in a folder. -/
def lookUp (d : Disk) (folder : Location) (name : String) : Except SystemError (Option Entry) :=
  if nameLimit < name.utf8ByteSize then .error .nameTooLong else .ok (d.get? (folder ++ [name]))

/-- What stands at a place. -/
def lookAt (d : Disk) (place : Place) : Except SystemError (Option Entry) :=
  match place.last with
  | .name s => d.lookUp place.folder s
  | _ => .ok (d.get? place.location)

/-- Follows steps from a folder. `onLink` goes on with the steps that a link adds and those left,
from another folder; the flag tells whether a folder is wanted at the end. -/
def walkWith (d : Disk) (lastName : LastName)
    (onLink : Bool → List Component → Location → Except SystemError Place) (wantsFolder : Bool) :
    List Component → Location → Except SystemError Place
  | [], folder => .ok ⟨folder, .here, wantsFolder⟩
  | [.name s], folder =>
    if lastName = .kept then .ok ⟨folder, .name s, wantsFolder⟩
    else if lastName = .made && wantsFolder then .error .isFolder
    else
      match d.lookUp folder s with
      | .error e => .error e
      | .ok (some (.link target)) =>
        onLink (wantsFolder || endsInSeparator target) (stepsOf target) (startOf target folder)
      | .ok _ => .ok ⟨folder, .name s, wantsFolder⟩
  | [last], folder => .ok ⟨folder, last, wantsFolder⟩
  | .root :: rest, _ => walkWith d lastName onLink wantsFolder rest []
  | .here :: rest, folder => walkWith d lastName onLink wantsFolder rest folder
  | .up :: rest, folder => walkWith d lastName onLink wantsFolder rest folder.dropLast
  | .name s :: rest, folder =>
    match d.lookUp folder s with
    | .error e => .error e
    | .ok (some (.link target)) =>
      onLink wantsFolder (stepsOf target ++ rest) (startOf target folder)
    | .ok (some .folder) => walkWith d lastName onLink wantsFolder rest (folder ++ [s])
    | .ok (some _) => .error .notFolder
    | .ok none => .error .noEntry

/-- Follows steps from a folder through at most `links` links. -/
def walk (d : Disk) (lastName : LastName) : (links : Nat) → (wantsFolder : Bool) →
    List Component → Location → Except SystemError Place
  | 0 => walkWith d lastName fun _ _ _ => .error .tooManyLinks
  | links + 1 => walkWith d lastName (walk d lastName links)

/-- Where a path leads on the disk. -/
def resolve (d : Disk) (lastName : LastName) (p : Path) : Except SystemError Place :=
  if p.text.toList.contains '\x00' then .error .zeroByteInPath
  else if p.text = "" then .error .noEntry
  else if pathLimit < p.text.utf8ByteSize then .error .nameTooLong
  else
    d.walk lastName linkLimit (endsInSeparator p.text) (stepsOf p.text)
      (startOf p.text d.workingFolder)

end Disk

end FileReceiver
