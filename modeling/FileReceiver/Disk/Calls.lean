/-
# Calls on a disk

The calls by which a program changes and reads a disk, with the errors that
they give. Every call draws a fault first. A call gives its result together
with the disk after it, also when it fails.

Key definitions: `Disk.openFresh`, `Disk.openEnd`, `Disk.write`,
`Disk.setLength`, `Disk.read`, `Disk.remove`, `Disk.rename`, `Disk.probe`,
`Disk.holdsFile`, `Disk.makeFolders`, `Disk.writeFile`, `Disk.readText`.
-/
import FileReceiver.Disk.Resolve

namespace FileReceiver

/-- What a call gives: its result and the disk after it. -/
abbrev Outcome (α : Type) := Except SystemError α × Disk

namespace Disk

/-- The mode of files that hold what is still being received. -/
def privateMode : Nat := 0o600

/-- The mode of other new files. -/
def commonMode : Nat := 0o644

/-- Opens a file for writing from its start: it is made, or emptied. -/
def openFresh (d : Disk) (p : Path) (mode : Nat) : Outcome Location :=
  d.attempt fun d =>
    match d.resolve .made p with
    | .error e => (.error e, d)
    | .ok place =>
      let loc := place.location
      match d.get? loc with
      | none => (.ok loc, d.put loc (.file mode .empty))
      | some (.file old _) => (.ok loc, d.put loc (.file old .empty))
      | some .fullDevice => (.ok loc, d)
      | some .folder => (.error .isFolder, d)
      | some (.link _) => (.error .tooManyLinks, d)

/-- Opens a file that is there, for writing at its end. -/
def openEnd (d : Disk) (p : Path) : Outcome Location :=
  d.attempt fun d =>
    match d.resolve .followed p with
    | .error e => (.error e, d)
    | .ok place =>
      match d.get? place.location with
      | none => (.error .noEntry, d)
      | some .folder => (.error .isFolder, d)
      | some (.link _) => (.error .tooManyLinks, d)
      | some _ => if place.wantsFolder then (.error .notFolder, d) else (.ok place.location, d)

/-- Puts bytes behind the content of an open file. -/
def extend (d : Disk) (loc : Location) (bytes : ByteArray) : Disk :=
  match d.get? loc with
  | some (.file mode content) => d.put loc (.file mode (content ++ bytes))
  | _ => d

/-- Writes at the end of an open file. To write nothing is no call. -/
def write (d : Disk) (loc : Location) (bytes : ByteArray) : Outcome Unit :=
  if bytes.isEmpty then (.ok (), d)
  else
    match d.draw with
    | (some fault, d) => (.error fault.error, d.extend loc (bytes.extract 0 fault.written))
    | (none, d) =>
      match d.get? loc with
      | some .fullDevice => (.error .noSpace, d)
      | _ => (.ok (), d.extend loc bytes)

/-- Content cut to a length, or filled up to it with zeros. -/
def resized (content : ByteArray) (length : Nat) : ByteArray :=
  content.extract 0 length ++ (List.replicate (length - content.size) (0 : UInt8)).toByteArray

/-- Sets the length of an open file. -/
def setLength (d : Disk) (loc : Location) (length : Nat) : Outcome Unit :=
  d.attempt fun d =>
    match d.get? loc with
    | some (.file mode content) => (.ok (), d.put loc (.file mode (resized content length)))
    | _ => (.error .invalidArgument, d)

/-- The content of a file. The full device gives zeros without end. -/
def read (d : Disk) (p : Path) : Outcome ByteArray :=
  d.attempt fun d =>
    match d.resolve .followed p with
    | .error e => (.error e, d)
    | .ok place =>
      match d.get? place.location with
      | none => (.error .noEntry, d)
      | some .folder => (.error .isFolder, d)
      | some (.file _ content) =>
        if place.wantsFolder then (.error .notFolder, d) else (.ok content, d)
      | some .fullDevice =>
        if place.wantsFolder then (.error .notFolder, d) else (.error .endless, d)
      | some (.link _) => (.error .tooManyLinks, d)

/-- Takes a file or a link away; a link is not followed. -/
def remove (d : Disk) (p : Path) : Outcome Unit :=
  d.attempt fun d =>
    match d.resolve .kept p with
    | .error e => (.error e, d)
    | .ok place =>
      match d.lookAt place with
      | .error e => (.error e, d)
      | .ok none => (.error .noEntry, d)
      | .ok (some .folder) => (.error .isFolder, d)
      | .ok (some _) =>
        if place.wantsFolder then (.error .notFolder, d) else (.ok (), d.erase place.location)

/-- Whether the last step to a place is taken on the disk of the devices. -/
def amongDevices (place : Place) : Bool :=
  place.folder.head? == some "dev"

/-- Whether the last step to a place is a name. -/
def isNamed (place : Place) : Bool :=
  match place.last with
  | .name _ => true
  | _ => false

/-- Moves a file or a link, in place of a file or link that has the new name. Folders are not
moved. -/
def rename (d : Disk) (old new : Path) : Outcome Unit :=
  d.attempt fun d =>
    match d.resolve .kept old, d.resolve .kept new with
    | .error e, _ => (.error e, d)
    | _, .error e => (.error e, d)
    | .ok source, .ok target =>
      if amongDevices source != amongDevices target then (.error .otherDevice, d)
      else if !(isNamed source && isNamed target) then (.error .busy, d)
      else match d.lookAt source, d.lookAt target with
        | .error e, _ => (.error e, d)
        | .ok none, _ => (.error .noEntry, d)
        | _, .error e => (.error e, d)
        | .ok (some .folder), _ => (.error .isFolder, d)
        | .ok (some e), .ok there =>
          if source.wantsFolder || target.wantsFolder then (.error .notFolder, d)
          else match there with
            | some .folder => (.error .isFolder, d)
            | _ => (.ok (), (d.erase source.location).put target.location e)

/-- Whether anything stands at the end of a path, through links; what cannot be told counts as
nothing. -/
def stands (d : Disk) (p : Path) : Bool :=
  match d.resolve .followed p with
  | .error _ => false
  | .ok place =>
    match d.get? place.location with
    | none => false
    | some .folder => true
    | some _ => !place.wantsFolder

/-- Whether a folder stands at the end of a path. -/
def isFolder (d : Disk) (p : Path) : Bool :=
  match d.resolve .followed p with
  | .error _ => false
  | .ok place => d.holdsFolder place.location

/-- Asks whether anything stands at the end of a path; a call that fails counts as no. -/
def probe (d : Disk) (p : Path) : Bool × Disk :=
  match d.draw with
  | (some _, d) => (false, d)
  | (none, d) => (d.stands p, d)

/-- Asks whether a file stands at the end of a path, through links. -/
def holdsFile (d : Disk) (p : Path) : Outcome Bool :=
  d.attempt fun d =>
    match d.resolve .followed p with
    | .error e => (.error e, d)
    | .ok place =>
      match d.get? place.location with
      | none => (.error .noEntry, d)
      | some .folder => (.ok false, d)
      | some (.file _ _) =>
        if place.wantsFolder then (.error .notFolder, d) else (.ok true, d)
      | some .fullDevice =>
        if place.wantsFolder then (.error .notFolder, d) else (.ok false, d)
      | some (.link _) => (.error .tooManyLinks, d)

/-- Makes one folder. -/
def makeFolder (d : Disk) (p : Path) : Outcome Unit :=
  d.attempt fun d =>
    match d.resolve .kept p with
    | .error e => (.error e, d)
    | .ok place =>
      match d.lookAt place with
      | .error e => (.error e, d)
      | .ok none => (.ok (), d.put place.location .folder)
      | .ok (some _) => (.error .alreadyExists, d)

/-- Makes a folder and those it stands in, as far as they are missing. The count bounds how many
are tried. -/
def makeFoldersUpTo : (fuel : Nat) → Disk → Path → Outcome Unit
  | 0, d, _ => (.error .noEntry, d)
  | fuel + 1, d, p =>
    if p.text = "" then (.ok (), d)
    else
      match d.makeFolder p with
      | (.ok (), d) => (.ok (), d)
      | (.error e, d) =>
        if e = .noEntry then
          match p.parent? with
          | none => (.error e, d)
          | some parent =>
            match makeFoldersUpTo fuel d parent with
            | (.error e, d) => (.error e, d)
            | (.ok (), d) =>
              match d.makeFolder p with
              | (.ok (), d) => (.ok (), d)
              | (.error e, d) => if d.isFolder p then (.ok (), d) else (.error e, d)
        else if d.isFolder p then (.ok (), d)
        else (.error e, d)

/-- Makes a folder and those it stands in, as far as they are missing. -/
def makeFolders (d : Disk) (p : Path) : Outcome Unit :=
  makeFoldersUpTo (p.components.length + 1) d p

/-- Writes a whole file. -/
def writeFile (d : Disk) (p : Path) (content : ByteArray) : Outcome Unit :=
  match d.openFresh p commonMode with
  | (.error e, d) => (.error e, d)
  | (.ok loc, d) => d.write loc content

/-- The content of a file that has to be UTF-8. -/
def readText (d : Disk) (p : Path) : Outcome String :=
  match d.read p with
  | (.error e, d) => (.error e, d)
  | (.ok content, d) =>
    match String.fromUTF8? content with
    | some text => (.ok text, d)
    | none => (.error .notText, d)

/-- Puts a link at the end of a path where nothing stands. -/
def makeLink (d : Disk) (p : Path) (target : String) : Outcome Unit :=
  d.attempt fun d =>
    match d.resolve .kept p with
    | .error e => (.error e, d)
    | .ok place =>
      match d.lookAt place with
      | .error e => (.error e, d)
      | .ok none =>
        if place.wantsFolder then (.error .noEntry, d)
        else (.ok (), d.put place.location (.link target))
      | .ok (some _) => (.error .alreadyExists, d)

/-- The mode of what stands at the end of a path. -/
def mode? (d : Disk) (p : Path) : Option Nat :=
  match d.resolve .followed p with
  | .error _ => none
  | .ok place =>
    match d.get? place.location with
    | some .folder => some 0o755
    | some (.file mode _) => if place.wantsFolder then none else some mode
    | some .fullDevice => if place.wantsFolder then none else some 0o666
    | some (.link _) | none => none

end Disk

end FileReceiver
