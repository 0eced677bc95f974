import Chip8.Command.UsageError
import Chip8.Listing.Line

/-!
# Reading a command line

Before it is known what an argument means, its form is. Two dashes alone end the options. Two
dashes and a name are a long option, to which a value may be attached by an equals sign. One dash
and a letter are a short option, and what follows the letter belongs to it. All else, a single dash
and the empty text included, is plain.

## Drafts

A command line is read from left to right into a `Draft`, which holds what has been said so far.

The last value said is held back. It is looked at when the next argument that is understood arrives,
or at the end. So an argument that nobody understands is reported before a bad value in front of it,
and an option that still waits for its value is reported only when something else comes instead.

That an option was given before is noticed before its new value is looked at.

## Main definitions

* `Command.Request`, `Command.Invocation` — what was asked for
* `Command.Argument`, `Command.Argument.ofString` — the form of an argument
* `Command.Meaning`, `Command.Argument.meaning` — what an argument says about a request
* `Command.Draft` — what has been said so far
* `Command.Draft.read`, `Command.Draft.readPlain` — the rest of a request
* `Command.readInvocation` — a whole command line
-/

namespace Chip8.Command

/-- A listing to be made. -/
structure Request where
  romPath : String
  output : String
  options : Listing.Options
  deriving DecidableEq, Repr

/-- What a command line asks for. -/
inductive Invocation
  /-- Nothing was said at all. -/
  | nothing
  | help (subject : Subject)
  | version
  | disassemble (request : Request)
  deriving DecidableEq, Repr

/-- The output that stands for standard output. -/
def standardName : String := "stdout"

/-! ### The form of an argument -/

/-- The form of an argument. -/
inductive Argument
  /-- What ends the options. -/
  | separator
  | long (name : String) (value : Option String)
  | short (letter : Char) (attached : List Char)
  | plain (text : String)
  deriving DecidableEq, Repr

namespace Argument

/-- The name and value in what stands behind two dashes. -/
def ofLong (cs : List Char) : Argument :=
  let name := String.ofList (cs.takeWhile (· ≠ '='))
  match cs.dropWhile (· ≠ '=') with
  | [] => long name none
  | _ :: value => long name (some (String.ofList value))

/-- The form of a text that is given as an argument. -/
def ofString (text : String) : Argument :=
  match text.toList with
  | ['-', '-'] => separator
  | '-' :: '-' :: cs => ofLong cs
  | '-' :: c :: attached => short c attached
  | _ => plain text

end Argument

/-! ### What an argument says -/

/-- What an argument says about a request, whatever else is said. -/
inductive Meaning
  | separator
  | positional (text : String)
  | value (slot : Slot) (value : Option String)
  | flag (flag : Flag) (value : Option String)
  | unknown (text : String)
  deriving DecidableEq, Repr

/-- What a long option says. -/
def longMeaning (name : String) (value : Option String) : Meaning :=
  match name with
  | "output" => .value .output value
  | "load-address" => .value .loadAddress value
  | "bare-unknown" => .flag .bareUnknown value
  | "strict" => .flag .strict value
  | "help" => .flag (.help .full) value
  | _ => .unknown ("--" ++ name)

/-- What follows the letter of a short option, without an equals sign between them. -/
def attachedValue : List Char → Option String
  | [] => none
  | '=' :: value => some (String.ofList value)
  | value => some (String.ofList value)

/-- What a short option says. -/
def shortMeaning (letter : Char) (attached : List Char) : Meaning :=
  match letter with
  | 'o' => .value .output (attachedValue attached)
  | 'h' => .flag (.help .brief) none
  | _ => .unknown (String.ofList ['-', letter])

/-- What an argument of some form says. -/
def Argument.meaning : Argument → Meaning
  | separator => .separator
  | long name value => longMeaning name value
  | short letter attached => shortMeaning letter attached
  | plain text => .positional text

/-! ### What has been said -/

/-- The value that has not been looked at yet. -/
inductive Pending
  | nothing
  /-- An option that waits for its value. -/
  | awaiting (slot : Slot)
  | held (slot : Slot) (value : String)
  deriving DecidableEq, Repr

/-- What has been said so far. All of it has been looked at, except for what is pending. -/
structure Draft where
  romPath : Option String := none
  output : Option String := none
  loadAddress : Option Address := none
  bareUnknown : Bool := false
  strict : Bool := false
  pending : Pending := .nothing
  deriving DecidableEq, Repr

namespace Draft

/-- Whether the value of a slot has been looked at. -/
def has (d : Draft) : Slot → Bool
  | .romPath => d.romPath.isSome
  | .output => d.output.isSome
  | .loadAddress => d.loadAddress.isSome

/-- Fills a slot that is empty. -/
def fill (d : Draft) (value : String) : Slot → Except UsageError Draft
  | .romPath =>
    if value.isEmpty then .error (.missingValue .romPath)
    else .ok { d with romPath := some value }
  | .output => .ok { d with output := some value }
  | .loadAddress =>
    match readAddress value with
    | .error e => .error (.invalidAddress value e)
    | .ok address => .ok { d with loadAddress := some address }

/-- Fills a slot, once. -/
def assign (d : Draft) (slot : Slot) (value : String) : Except UsageError Draft :=
  if d.has slot then .error (.repeatedSlot slot) else d.fill value slot

/-- Looks at the value held back. -/
def settle (d : Draft) : Except UsageError Draft :=
  let settled := { d with pending := .nothing }
  match d.pending with
  | .nothing => .ok settled
  | .awaiting slot => .error (.missingValue slot)
  | .held slot value => settled.assign slot value

/-- Whether a path has been said, looked at or not. -/
def hasPath (d : Draft) : Bool :=
  d.romPath.isSome || match d.pending with
    | .held .romPath _ => true
    | _ => false

/-- Takes a text as the path. -/
def takePath (d : Draft) (text : String) : Except UsageError Draft :=
  if d.hasPath then .error (.unexpectedArgument text)
  else do
    let d ← d.settle
    .ok { d with pending := .held .romPath text }

/-- Takes a text as the value that is waited for, or else as the path. -/
def takeText (d : Draft) (text : String) : Except UsageError Draft :=
  match d.pending with
  | .awaiting slot => .ok { d with pending := .held slot text }
  | _ => d.takePath text

/-- Takes an option that has a value. -/
def takeSlot (d : Draft) (slot : Slot) (value : Option String) : Except UsageError Draft := do
  let d ← d.settle
  match value with
  | none => .ok { d with pending := .awaiting slot }
  | some value => d.assign slot value

/-- Takes the option for the bare style, once. -/
def takeBareUnknown (d : Draft) : Except UsageError Draft := do
  let d ← d.settle
  if d.bareUnknown then .error (.repeatedFlag .bareUnknown)
  else .ok { d with bareUnknown := true }

/-- Takes the option that refuses an odd last byte, once. -/
def takeStrict (d : Draft) : Except UsageError Draft := do
  let d ← d.settle
  if d.strict then .error (.repeatedFlag .strict)
  else .ok { d with strict := true }

/-- The request, with the usual values where nothing was said. -/
def request (d : Draft) (romPath : String) : Request where
  romPath := romPath
  output := d.output.getD standardName
  options := {
    loadAddress := d.loadAddress.getD programStart
    unknownStyle := if d.bareUnknown then .bare else .addressed
    trailingByte := if d.strict then .reject else .truncate }

/-- The request, if it is complete. -/
def finish (d : Draft) : Except UsageError Invocation := do
  let d ← d.settle
  match d.romPath with
  | none => .error .missingPath
  | some romPath => .ok (.disassemble (d.request romPath))

/-- Reads arguments that can only be paths. -/
def readPlain (d : Draft) : List String → Except UsageError Invocation
  | [] => d.finish
  | text :: rest => do
    let d ← d.takePath text
    d.readPlain rest

/-- Reads the rest of a request. -/
def read (d : Draft) : List String → Except UsageError Invocation
  | [] => d.finish
  | text :: rest =>
    match (Argument.ofString text).meaning with
    | .separator => d.readPlain rest
    | .positional text => do
      let d ← d.takeText text
      d.read rest
    | .value slot value => do
      let d ← d.takeSlot slot value
      d.read rest
    | .flag flag (some value) => .error (.unexpectedValue value flag)
    | .flag .bareUnknown none => do
      let d ← d.takeBareUnknown
      d.read rest
    | .flag .strict none => do
      let d ← d.takeStrict
      d.read rest
    | .flag (.help extent) none => do
      let _ ← d.settle
      .ok (.help (.disassemble extent))
    | .flag .version none => .error (.unexpectedArgument Flag.version.text)
    | .unknown text => .error (.unexpectedArgument text)

end Draft

/-! ### The whole command line -/

/-- Whether a text names the command that lists an image. -/
def isDisassemble (text : String) : Bool := text == "disassemble" || text == "d"

/-- What is asked for behind the word `help`. No command has commands of its own. -/
def readTopic : List String → Except UsageError Invocation
  | [] => .ok (.help .program)
  | [topic] =>
    if isDisassemble topic then .ok (.help (.disassemble .full))
    else if topic == "help" then .ok (.help .help)
    else .error (.unknownCommand topic)
  | topic :: inner :: _ =>
    if isDisassemble topic || topic == "help" then .error (.unknownCommand inner)
    else .error (.unknownCommand topic)

/-- Reads what follows two dashes where a command was expected. No command can be named there. -/
def readAfterSeparator : List String → Except UsageError Invocation
  | [] => .ok .nothing
  | text :: _ =>
    if isDisassemble text || text == "help" then .error (.unexpectedArgument text)
    else .error (.unknownCommand text)

/-- Reads a command line, which has to name a command unless it asks for help or the version. -/
def readInvocation : List String → Except UsageError Invocation
  | [] => .ok .nothing
  | text :: rest =>
    if isDisassemble text then Draft.read {} rest
    else if text == "help" then readTopic rest
    else match Argument.ofString text with
      | .separator => readAfterSeparator rest
      | .long "help" none => .ok (.help .program)
      | .long "help" (some value) => .error (.unexpectedValue value (.help .full))
      | .long "version" none => .ok .version
      | .long "version" (some value) => .error (.unexpectedValue value .version)
      | .long name _ => .error (.unexpectedArgument ("--" ++ name))
      | .short 'h' _ => .ok (.help .program)
      | .short 'V' _ => .ok .version
      | .short letter _ => .error (.unexpectedArgument (String.ofList ['-', letter]))
      | .plain text => .error (.unknownCommand text)

end Chip8.Command
