/-
# Variables in a file

A file of the working folder, or of the nearest folder around it that has one,
may set variables that the environment does not hold. A line is a name, an
equals sign and a value; `export` may stand in front. Inside quotes a value
may go over several lines. Single quotes take everything as it is; elsewhere a
backslash escapes, and a dollar sign with a name, bare or in braces, is
replaced by the value of that variable. A number sign behind a blank starts a
comment. The first line that is none of this ends the reading, and what was
set before it stays. No variable can hold a zero byte: a line that would give
it to one is not survived.

Key definitions: `VariableFile.readLine`, `VariableFile.readValue`,
`VariableFile.setVariables?`, `VariableFile.places`, `VariableFile.find?`,
`VariableFile.extend?`.
-/
import FileReceiver.Settings.Store
import FileReceiver.Text.Alphanumeric

namespace FileReceiver.VariableFile

/-! ## Lines -/

/-- Where the end of a line stands. -/
inductive LineState where
  | plain
  | escape
  | single
  | singleEscape
  | double
  | doubleEscape
  | blank
  | comment
deriving DecidableEq, Repr

/-- The state after one more character; a comment goes on to the end of the line. -/
def LineState.next (state : LineState) (c : Char) : LineState :=
  let start (otherwise : LineState) : LineState :=
    if c = '\\' then .escape
    else if c = '"' then .double
    else if c = '\'' then .single
    else otherwise
  match state with
  | .plain => start (if Text.isBlank c && c != '\n' && c != '\r' then .blank else .plain)
  | .blank => if c = '#' then .comment else start .plain
  | .escape => .plain
  | .double => if c = '\\' then .doubleEscape else if c = '"' then .plain else .double
  | .doubleEscape => .double
  | .single => if c = '\\' then .singleEscape else if c = '\'' then .plain else .single
  | .singleEscape => .single
  | .comment => .comment

/-- The text of a line up to a comment, in reverse and behind what came before, and the state at
its end. -/
def scanLine (state : LineState) (before : List Char) : List Char → List Char × LineState
  | [] => (before, state)
  | c :: rest =>
    match state.next c with
    | .comment => (before, .comment)
    | state => scanLine state (c :: before) rest

/-- The lines of a content, each with its line break. -/
def splitLines : List UInt8 → List (List UInt8)
  | [] => []
  | b :: rest =>
    if b = 10 then [b] :: splitLines rest
    else match splitLines rest with
      | [] => [[b]]
      | line :: more => (b :: line) :: more

/-- The text of a line; nothing for one that is not UTF-8. -/
def lineText? (line : List UInt8) : Option (List Char) :=
  (String.fromUTF8? line.toByteArray).map String.toList

/-- A line without its line break. -/
def dropLineBreak (reversed : List Char) : List Char :=
  match reversed with
  | '\n' :: '\r' :: rest => rest.reverse
  | '\n' :: rest => rest.reverse
  | rest => rest.reverse

/-- Joins lines that a quote or an escape leaves open; where none is open, a line that is a comment
counts as an empty one. The last item is nothing if the text ends inside an open line, or at a line
that is no text. -/
def logicalLines (state : LineState) (before : List Char) : List (Option (List Char)) →
    List (Option (List Char))
  | [] => if state = .plain then [] else [none]
  | none :: _ => [none]
  | some line :: rest =>
    if before = [] ∧ (line.dropWhile Text.isBlank).head? = some '#' then
      some [] :: logicalLines .plain [] rest
    else
      match scanLine state before line with
      | (text, .plain) => some (dropLineBreak text) :: logicalLines .plain [] rest
      | (text, .comment) => some text.reverse :: logicalLines .plain [] rest
      | (text, state) => logicalLines state text rest

/-! ## Values -/

/-- How the name behind a dollar sign is being read. -/
inductive NameMode where
  | none
  | bare
  | braced
deriving DecidableEq, Repr

/-- A value that is being read. -/
structure ValueState where
  single : Bool := false
  double : Bool := false
  escaped : Bool := false
  /-- After a blank, only blanks and a comment may follow. -/
  ended : Bool := false
  mode : NameMode := .none
  /-- The name behind the dollar sign, in reverse. -/
  name : List Char := []
  /-- The value so far, in reverse. -/
  output : List Char := []

namespace ValueState

/-- Puts the value of the variable that has been named behind the output. -/
def substitute (lookup : String → String) (s : ValueState) : ValueState :=
  { s with
    output := (lookup (String.ofList s.name.reverse)).toList.reverse ++ s.output
    name := [] }

/-- A character behind a dollar sign. -/
def inName (lookup : String → String) (s : ValueState) (c : Char) : ValueState :=
  if Text.isAlphanumeric c then { s with name := c :: s.name }
  else if s.mode = .braced then
    if c = '\x7d' then { s.substitute lookup with mode := .none }
    else { s with name := c :: s.name }
  else if c = '\x7b' ∧ s.name = [] then { s with mode := .braced }
  else
    let s := s.substitute lookup
    if c = '$' then { s with mode := .bare } else { s with mode := .none, output := c :: s.output }

/-- A character that is neither behind a dollar sign nor after the end. -/
def inText (s : ValueState) (c : Char) : ValueState :=
  if c = '$' then { s with mode := .bare }
  else if s.double then
    if c = '"' then { s with double := false }
    else if c = '\\' then { s with escaped := true }
    else { s with output := c :: s.output }
  else if c = '\'' then { s with single := true }
  else if c = '"' then { s with double := true }
  else if c = '\\' then { s with escaped := true }
  else if c = ' ' ∨ c = '\t' then { s with ended := true }
  else { s with output := c :: s.output }

/-- A character behind a backslash. -/
def afterBackslash (s : ValueState) (c : Char) : Option ValueState :=
  if c = '\\' ∨ c = '\'' ∨ c = '"' ∨ c = '$' ∨ c = ' ' then
    some { s with escaped := false, output := c :: s.output }
  else if c = 'n' then some { s with escaped := false, output := '\n' :: s.output }
  else none

/-- The end of a value: no quote and no brace may be open. -/
def close (lookup : String → String) (s : ValueState) : Option String :=
  if s.mode = .braced ∨ s.single ∨ s.double then none
  else
    let s := if s.mode = .none then s else s.substitute lookup
    some (String.ofList s.output.reverse)

end ValueState

/-- The value that the characters write. -/
def readValue (lookup : String → String) (s : ValueState) : List Char → Option String
  | [] => s.close lookup
  | c :: rest =>
    if s.ended then
      if c = ' ' ∨ c = '\t' then readValue lookup s rest
      else if c = '#' then s.close lookup
      else none
    else if s.escaped then
      match s.afterBackslash c with
      | some s => readValue lookup s rest
      | none => none
    else if s.single then
      if c = '\'' then readValue lookup { s with single := false } rest
      else readValue lookup { s with output := c :: s.output } rest
    else if s.mode ≠ .none then readValue lookup (s.inName lookup c) rest
    else readValue lookup (s.inText c) rest

/-! ## Entries -/

/-- What a line says. -/
inductive Entry where
  | nothing
  | assign (name : String) (value : List Char)
  | wrong

/-- A name at the start of the text, and what follows it. -/
def readName? (text : List Char) : Option (List Char × List Char) :=
  match text with
  | c :: _ =>
    if c.isAlpha || c == '_' then
      let inName (c : Char) := c.isAlphanum || c == '_' || c == '.'
      some (text.takeWhile inName, text.dropWhile inName)
    else none
  | [] => none

def skipBlanks (text : List Char) : List Char :=
  text.dropWhile Text.isBlank

/-- The value behind an equals sign. -/
def assignment (name : List Char) (text : List Char) : Entry :=
  match skipBlanks text with
  | '=' :: value => .assign (String.ofList name) (skipBlanks value)
  | _ => .wrong

/-- What a line says. -/
def readLine (line : List Char) : Entry :=
  match Text.trimBlanks line with
  | [] => .nothing
  | '#' :: _ => .nothing
  | text =>
    match readName? text with
    | none => .wrong
    | some (name, rest) =>
      if name = "export".toList then
        match assignment name rest with
        | .wrong =>
          match readName? (skipBlanks rest) with
          | some (name, rest) => assignment name rest
          | none => .wrong
        | entry => entry
      else assignment name rest

/-- The environment with a variable that it lacks; one that it has keeps its value. Nothing if the
variable would have to hold a zero byte. -/
def setVariable? (environment : Environment) (name value : String) : Option Environment :=
  match environment.lookup name with
  | some _ => some environment
  | none => if value.toList.contains '\x00' then none else some (environment ++ [(name, value)])

/-- The variables that lines set, behind those of the environment, which keep their values. The
second list holds what the lines have set, the last first, for names that the environment lacks.
Nothing if one of them cannot be set. -/
def setVariables? (environment : Environment) (own : Environment) :
    List (Option (List Char)) → Option Environment
  | [] => some environment
  | none :: _ => some environment
  | some line :: rest =>
    match readLine line with
    | .nothing => setVariables? environment own rest
    | .wrong => some environment
    | .assign name value =>
      let lookup (wanted : String) : String :=
        ((environment.lookup wanted) <|> (own.lookup wanted)).getD ""
      let read := match value with
        | [] => some ""
        | '#' :: _ => some ""
        | value => readValue lookup {} value
      match read with
      | none => some environment
      | some value =>
        match setVariable? environment name value with
        | none => none
        | some environment => setVariables? environment ((name, value) :: own) rest

/-! ## The file -/

/-- The name of the file. -/
def fileName : String := ".env"

/-- The path of the file in a folder. -/
def pathIn (folder : Location) : Path :=
  ⟨"/" ++ "/".intercalate (folder ++ [fileName])⟩

/-- Where the file may stand: in a folder, told by the names that lead to it, the last first, and in
every folder around it, the nearest first. -/
def places : (names : List String) → List Path
  | [] => [pathIn []]
  | name :: outer => pathIn (name :: outer).reverse :: places outer

/-- The first of the places where a file stands. Nothing and what is no file is passed over; where
the call fails otherwise, the search ends. -/
def find? : List Path → Disk → Option Path × Disk
  | [], d => (none, d)
  | p :: outer, d =>
    match d.holdsFile p with
    | (.ok true, d) => (some p, d)
    | (.ok false, d) => find? outer d
    | (.error e, d) => if e = .noEntry then find? outer d else (none, d)

/-- A content without the mark of its byte order. -/
def dropByteOrderMark : List UInt8 → List UInt8
  | 0xEF :: 0xBB :: 0xBF :: rest => rest
  | content => content

/-- The environment together with the variables of the file, if there is one. Nothing if a variable
cannot be set. -/
def extend? (environment : Environment) (d : Disk) : Option Environment × Disk :=
  match find? (places d.workingFolder.reverse) d with
  | (none, d) => (some environment, d)
  | (some p, d) =>
    match d.read p with
    | (.error _, d) => (some environment, d)
    | (.ok content, d) =>
      let lines := splitLines (dropByteOrderMark content.toList)
      (setVariables? environment [] (logicalLines .plain [] (lines.map lineText?)), d)

end FileReceiver.VariableFile
