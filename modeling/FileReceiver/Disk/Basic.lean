/-
# A disk

A disk maps locations to entries. A location is the list of names from the
root, so that what stands in a folder is what has the folder's location in
front of its own; the root itself is always a folder. Relative paths start at
the working folder. A disk may be told to fail: each call draws the head of
its list of faults, and a call that draws a fault does nothing but, if it is a
write, leave a start of the bytes behind.

Key definitions: `Location`, `Entry`, `Disk`, `Disk.get?`,
`Disk.holdsFolder`, `Disk.put`, `Disk.erase`, `Fault`, `Disk.attempt`.
Key theorems: `Disk.get?_put`, `Disk.get?_erase`.
-/
import FileReceiver.SystemError
import Std.Data.ExtTreeMap

namespace FileReceiver

/-- The names from the root to an entry. -/
abbrev Location := List String

/-- What stands at a location. -/
inductive Entry where
  | folder
  | file (mode : Nat) (content : ByteArray)
  /-- A symbolic link with the path that it holds. -/
  | link (target : String)
  /-- A device on which there is never room, and from which zeros are read without end. -/
  | fullDevice

/-- The failure of a call, and how many bytes it leaves behind if it is a write. -/
structure Fault where
  error : SystemError
  written : Nat := 0
deriving DecidableEq

structure Disk where
  entries : Std.ExtTreeMap Location Entry
  workingFolder : Location := []
  /-- What happens to the calls to come: nothing, or a fault. Calls past the end succeed. -/
  faults : List (Option Fault) := []

namespace Disk

/-- The entry at a location; the root is a folder. -/
def get? (d : Disk) (loc : Location) : Option Entry :=
  if loc = [] then some .folder else d.entries[loc]?

/-- Whether a folder stands at a location. -/
def holdsFolder (d : Disk) (loc : Location) : Bool :=
  match d.get? loc with
  | some .folder => true
  | _ => false

/-- Puts an entry at a location, in place of what stands there. -/
def put (d : Disk) (loc : Location) (e : Entry) : Disk :=
  { d with entries := d.entries.insert loc e }

/-- Takes the entry at a location away. -/
def erase (d : Disk) (loc : Location) : Disk :=
  { d with entries := d.entries.erase loc }

/-- Takes an entry and everything below it away. -/
def eraseTree (d : Disk) (loc : Location) : Disk :=
  { d with entries := d.entries.filter fun place _ => !loc.isPrefixOf place }

/-- What stands below a location, in the order of the locations: the rest of each location and its
entry. -/
def below (d : Disk) (loc : Location) : List (Location × Entry) :=
  d.entries.toList.filterMap fun (place, e) =>
    if loc.isPrefixOf place ∧ place ≠ loc then some (place.drop loc.length, e) else none

/-- The fault that the next call draws, and the disk without it. -/
def draw (d : Disk) : Option Fault × Disk :=
  match d.faults with
  | [] => (none, d)
  | fault :: rest => (fault, { d with faults := rest })

/-- Makes a call, unless it draws a fault. -/
def attempt {α : Type} (d : Disk) (call : Disk → Except SystemError α × Disk) :
    Except SystemError α × Disk :=
  match d.draw with
  | (some fault, d) => (.error fault.error, d)
  | (none, d) => call d

theorem get?_root (d : Disk) : d.get? [] = some .folder := rfl

/-- Putting changes what stands at one location, and nothing at the root. -/
theorem get?_put (d : Disk) (loc place : Location) (e : Entry) :
    (d.put loc e).get? place =
      if place = [] then some .folder else if loc = place then some e else d.get? place := by
  simp only [get?, put]
  split
  · rfl
  · simp [Std.ExtTreeMap.getElem?_insert]

/-- Taking away changes what stands at one location, and nothing at the root. -/
theorem get?_erase (d : Disk) (loc place : Location) :
    (d.erase loc).get? place =
      if place = [] then some .folder else if loc = place then none else d.get? place := by
  simp only [get?, erase]
  split
  · rfl
  · simp [Std.ExtTreeMap.getElem?_erase]

end Disk

end FileReceiver
