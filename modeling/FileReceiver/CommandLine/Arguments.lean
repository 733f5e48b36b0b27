/-
# Arguments of the command line

An option takes a value, behind an equals sign or as the next word; a flag
takes none. What is wrong is told by the first fault met: a word that no
option takes is a fault at once, while the value of an option is looked at
when the next option or flag is met or the words end. Options that the words
do not name are then read from their variables, in the order in which they
are declared, and only after that is a PIN beside a random PIN a fault.

Key definitions: `Setting`, `Setting.read`, `Arguments`, `UsageError`,
`Arguments.parse`.
-/
import FileReceiver.Settings.Store

namespace FileReceiver

/-- The options that take a value. -/
inductive Setting where
  | settingsFile
  | port
  | broadcastPort
  | broadcastInterval
  | pin
  | outputFolder
  | certificate
  | key
  | nickname
  | maxBody
deriving DecidableEq, Repr

/-- How a command line can end other than with arguments. -/
inductive UsageError where
  | unknownArgument
  | badValue
  | missingValue
  | unneededValue
  | conflict
  | help
  | version
deriving DecidableEq, Repr

/-- The exit code: help and version are no faults. -/
def UsageError.exitCode : UsageError → Nat
  | help | version => 0
  | _ => 2

/-- The options and flags that were given. -/
structure Arguments where
  settingsFile : Option Path := none
  port : Option UInt16 := none
  broadcastPort : Option UInt16 := none
  broadcastInterval : Option UInt64 := none
  pin : Option String := none
  randomPin : Bool := false
  outputFolder : Option Path := none
  certificate : Option Path := none
  key : Option Path := none
  nickname : Option String := none
  maxBody : Option UInt64 := none
  verbose : Bool := false
deriving DecidableEq, Repr

namespace Setting

/-- The options in the order in which they are declared. -/
def all : List Setting :=
  [settingsFile, port, broadcastPort, broadcastInterval, pin, outputFolder, certificate, key,
    nickname, maxBody]

/-- The name of the option, without its dashes. -/
def longName : Setting → String
  | settingsFile => "config"
  | port => "port"
  | broadcastPort => "bcast-port"
  | broadcastInterval => "bcast-interval"
  | pin => "pin"
  | outputFolder => "output-dir"
  | certificate => "certfile"
  | key => "keyfile"
  | nickname => "alias"
  | maxBody => "max-body-bytes"

/-- The variable from which the option is read if it is not named. -/
def variableName : Setting → String
  | settingsFile => "LANSEND_CONFIG"
  | port => "LANSEND_PORT"
  | broadcastPort => "LANSEND_BCAST_PORT"
  | broadcastInterval => "LANSEND_BCAST_INTERVAL"
  | pin => "LANSEND_PIN"
  | outputFolder => "LANSEND_OUTPUT_DIR"
  | certificate => "LANSEND_CERTFILE"
  | key => "LANSEND_KEYFILE"
  | nickname => "LANSEND_ALIAS"
  | maxBody => "LANSEND_MAX_BODY_BYTES"

/-- A port: digits with an optional sign, of which the minus sign goes with zero only. -/
def readPort (s : String) : Except UsageError UInt16 :=
  let number := match s.toList with
    | '-' :: digits => match Text.readNat? digits with
      | some 0 => some 0
      | _ => none
    | s => Text.readCount? s
  match number with
  | some n => if n < UInt16.size then .ok n.toUInt16 else .error .badValue
  | none => .error .badValue

/-- A count of 64 bits: digits with an optional plus sign. -/
def readCount (s : String) : Except UsageError UInt64 :=
  match Text.readCount? s.toList with
  | some n => if n < UInt64.size then .ok n.toUInt64 else .error .badValue
  | none => .error .badValue

/-- A path, which must not be empty. -/
def readPath (s : String) : Except UsageError Path :=
  if s = "" then .error .missingValue else .ok ⟨s⟩

/-- Reads the value of the option into the arguments. -/
def read (o : Setting) (value : String) (a : Arguments) : Except UsageError Arguments :=
  match o with
  | settingsFile => do return { a with settingsFile := some (← readPath value) }
  | port => do return { a with port := some (← readPort value) }
  | broadcastPort => do return { a with broadcastPort := some (← readPort value) }
  | broadcastInterval => do return { a with broadcastInterval := some (← readCount value) }
  | pin => .ok { a with pin := some value }
  | outputFolder => do return { a with outputFolder := some (← readPath value) }
  | certificate => do return { a with certificate := some (← readPath value) }
  | key => do return { a with key := some (← readPath value) }
  | nickname => .ok { a with nickname := some value }
  | maxBody => do return { a with maxBody := some (← readCount value) }

end Setting

/-- The flags, which take no value. -/
inductive Flag where
  | randomPin
  | verbose
  | help
  | version
deriving DecidableEq, Repr

namespace Flag

/-- The flag of the given name. -/
def ofLongName? : List Char → Option Flag
  | ['r', 'a', 'n', 'd', 'o', 'm', '-', 'p', 'i', 'n'] => some randomPin
  | ['v', 'e', 'r', 'b', 'o', 's', 'e'] => some verbose
  | ['h', 'e', 'l', 'p'] => some help
  | ['v', 'e', 'r', 's', 'i', 'o', 'n'] => some version
  | _ => none

/-- The flag of the given letter. -/
def ofLetter? : Char → Option Flag
  | 'v' => some verbose
  | 'h' => some help
  | 'V' => some version
  | _ => none

end Flag

/-- The words of a command line that have been gone through. -/
structure Reading where
  arguments : Arguments := {}
  /-- The options that have got their value. -/
  given : List Setting := []
  /-- The last option, as long as its value has not been looked at. -/
  pending : Option (Setting × Option String) := none
  /-- Whether a double dash has been met. -/
  escaped : Bool := false

namespace Reading

/-- Gives an option its value. -/
def take (r : Reading) (o : Setting) (value : String) : Except UsageError Reading :=
  if r.given.contains o then .error .conflict
  else do return { r with arguments := ← o.read value r.arguments, given := o :: r.given }

/-- Looks at the value of the option that is waiting for it. -/
def settle (r : Reading) : Except UsageError Reading :=
  match r.pending with
  | none => .ok r
  | some (_, none) => .error .missingValue
  | some (o, some value) => { r with pending := none }.take o value

/-- Raises a flag. -/
def raise (r : Reading) (f : Flag) : Except UsageError Reading := do
  let r ← r.settle
  let a := r.arguments
  match f with
  | .help => .error .help
  | .version => .error .version
  | .randomPin =>
    if a.randomPin then .error .conflict
    else return { r with arguments := { a with randomPin := true } }
  | .verbose =>
    if a.verbose then .error .conflict
    else return { r with arguments := { a with verbose := true } }

/-- A word behind two dashes: a name, and a value behind an equals sign if there is one. -/
def long (r : Reading) (word : List Char) : Except UsageError Reading :=
  let name := word.takeWhile (· != '=')
  let value? := match word.dropWhile (· != '=') with
    | _ :: value => some (String.ofList value)
    | [] => none
  match Flag.ofLongName? name, value? with
  | some _, some _ => .error .unneededValue
  | some f, none => r.raise f
  | none, value? =>
    match Setting.all.find? (·.longName.toList == name), value? with
    | some o, some value => do (← r.settle).take o value
    | some o, none => do return { ← r.settle with pending := some (o, none) }
    | none, _ => .error .unknownArgument

/-- The letters behind a single dash. -/
def letters (r : Reading) : List Char → Except UsageError Reading
  | [] => .ok r
  | c :: rest =>
    match Flag.ofLetter? c with
    | some f => do (← r.raise f).letters rest
    | none => .error .unknownArgument

/-- A word that is no option: the value of the option that waits for one. -/
def plain (r : Reading) (word : String) : Except UsageError Reading :=
  match r.pending with
  | some (o, none) => .ok { r with pending := some (o, some word) }
  | _ => .error .unknownArgument

/-- Goes on by one word. -/
def word (r : Reading) (w : String) : Except UsageError Reading :=
  if r.escaped then .error .unknownArgument
  else match w.toList with
    | ['-', '-'] => .ok { r with escaped := true }
    | '-' :: '-' :: name => r.long name
    | '-' :: c :: rest => r.letters (c :: rest)
    | _ => r.plain w

/-- Reads an option from its variable, unless the words have named it. -/
def fromVariable (environment : Environment) (r : Reading) (o : Setting) :
    Except UsageError Reading :=
  if r.given.contains o then .ok r
  else match environment.lookup o.variableName with
    | none => .ok r
    | some value => r.take o value

end Reading

/-- Reads the words of a command line, and the environment for what they do not name. -/
def Arguments.parse (words : List String) (environment : Environment) :
    Except UsageError Arguments := do
  let r ← words.foldlM Reading.word {}
  let r ← r.settle
  let r ← Setting.all.foldlM (Reading.fromVariable environment) r
  if r.arguments.randomPin ∧ r.arguments.pin.isSome then .error .conflict
  else return r.arguments

end FileReceiver
