/-
# Paths

A path is kept as it was written. What it means is its list of components:
empty pieces and all dots but a leading one are left out, so that two paths
that differ only in doubled or trailing separators are the same. A path that
starts with a separator is absolute, and joining it to another discards the
other.

Key definitions: `Path`, `Path.components`, `Path.sameAs`, `Path.join`,
`Path.parent?`, `Path.fileName?`, `splitName`, `Path.extension?`.
-/
import FileReceiver.Text.Basic

namespace FileReceiver

/-- A path as it was written. -/
structure Path where
  text : String
deriving DecidableEq, Repr

/-- A step of a path. -/
inductive Component where
  | root
  /-- A leading dot. -/
  | here
  /-- Two dots. -/
  | up
  | name (s : String)
deriving DecidableEq, Repr

/-- The text of a step. -/
def Component.text : Component → String
  | root => ""
  | here => "."
  | up => ".."
  | name s => s

namespace Path

/-- The pieces between separators. -/
def pieces (text : List Char) : List (List Char) :=
  Text.pieces '/' text

/-- A piece that is not first: nothing for an empty one and a dot. -/
def component? (piece : List Char) : Option Component :=
  if piece = [] ∨ piece = ['.'] then none
  else if piece = ['.', '.'] then some .up
  else some (.name (String.ofList piece))

/-- Whether the path starts at the root. -/
def isAbsolute (p : Path) : Bool :=
  p.text.toList.head? == some '/'

/-- The steps of the path. -/
def components (p : Path) : List Component :=
  match pieces p.text.toList with
  | [] => []
  | first :: rest =>
    let start : List Component :=
      if p.isAbsolute then [.root]
      else if first = ['.'] then [.here]
      else (component? first).toList
    start ++ rest.filterMap component?

/-- Equality by components. -/
def sameAs (p q : Path) : Bool :=
  p.components == q.components

/-- The path of an entry below `p`: an absolute one stands for itself, and nothing is put before
an entry of the empty path. -/
def join (p : Path) (entry : String) : Path :=
  if entry.toList.head? = some '/' ∨ p.text = "" then ⟨entry⟩
  else if p.text.toList.getLast? = some '/' then ⟨p.text ++ entry⟩
  else ⟨p.text ++ "/" ++ entry⟩

/-- The path with text put behind it. -/
def addSuffix (p : Path) (suffix : String) : Path :=
  ⟨p.text ++ suffix⟩

/-- A path with the given steps. -/
def ofComponents (steps : List Component) : Path :=
  if steps = [.root] then ⟨"/"⟩ else ⟨"/".intercalate (steps.map Component.text)⟩

/-- The path without its last step; nothing for the root and the empty path. -/
def parent? (p : Path) : Option Path :=
  match p.components.getLast? with
  | none | some .root => none
  | some _ => some (ofComponents p.components.dropLast)

/-- The last step, if it is a name. -/
def fileName? (p : Path) : Option String :=
  match p.components.getLast? with
  | some (.name s) => some s
  | _ => none

end Path

/-- A name cut at its last dot: what stands before it and what stands after it, if there is a dot
that is not the first character. -/
def splitName (name : List Char) : List Char × Option (List Char) :=
  let afterDot := (name.reverse.takeWhile (· != '.')).reverse
  let beforeDot := (name.reverse.dropWhile (· != '.')).reverse.dropLast
  if beforeDot.isEmpty then (name, none) else (beforeDot, some afterDot)

/-- The extension of the last name of a path. -/
def Path.extension? (p : Path) : Option String := do
  let (_, extension) := splitName (← p.fileName?).toList
  return String.ofList (← extension)

end FileReceiver
