import Chip8.Command.Help
import Chip8.Command.Invocation
import Chip8.Command.Report
import Chip8.Files.System
import Chip8.Listing.Delivery

/-!
# Running a command

Listing a program file takes four steps, and each can fail: the file is read, the output is opened,
the listing is made, and it is written. The order decides what a failure leaves behind. A program
that cannot be read leaves the output alone; a program that is refused leaves an opened file empty;
and since the whole program is read first, it may be written to its own file.

A failure is a value, from which its text and the exit status follow.

## Main definitions

* `Command.Failure`, `Command.Failure.text`, `Command.Failure.causes`
* `Command.Request.perform` — makes a listing
* `Command.Outcome`, `Command.Outcome.status`, `Command.Outcome.diagnostics`
* `Command.run` — a whole run of the program
-/

namespace Chip8.Command

open Files (System Output ReadError)

variable {m : Type → Type} {H : Type} [Monad m]

/-- A step that failed. -/
inductive Failure
  | unread (error : ReadError)
  | unopened (fault : SystemFault)
  | unlisted (romPath : String) (error : Listing.Error)
  deriving DecidableEq, Repr

namespace Failure

/-- What failed, without the cause. -/
def text : Failure → String
  | unread error => "failed to load " ++ error.path
  | unopened _ => "failed to open output file for writing"
  | unlisted romPath _ => "failed to disassemble " ++ romPath

/-- What caused the failure, the nearest cause first. -/
def causes : Failure → List String
  | unread error => [error.message, error.fault.text]
  | unopened fault => [fault.text]
  | unlisted _ error => error.message :: error.cause?.toList.map SystemFault.text

end Failure

namespace Request

/-- Whether the listing goes to standard output. -/
def isStandard (r : Request) : Bool := r.output.isEmpty || r.output == standardName

/-- The name of the output in reports. -/
def destination (r : Request) : String := if r.isStandard then standardName else r.output

/-- Opens the output. -/
def openOutput (r : Request) (s : System m H) : m (Except SystemFault (Output H)) := do
  if r.isStandard then pure (.ok .standard)
  else
    let opened ← s.create r.output
    pure (opened.map .file)

/-- Lists a program that has been read to an output that has been opened. -/
def deliver (r : Request) (s : System m H) (program : List Byte) (output : Output H) :
    m (Except Failure Nat) := do
  let delivery := Listing.writeTo r.options program {}
  s.reportAll delivery.log
  match delivery.result with
  | .error e => pure (.error (.unlisted r.romPath e))
  | .ok count =>
    match ← s.write output (Listing.arrived delivery.events) with
    | .error fault => pure (.error (.unlisted r.romPath (.undelivered fault)))
    | .ok () => do
      s.report (.wrote count r.destination)
      pure (.ok count)

/-- Makes a listing and returns its length in bytes. -/
def perform (r : Request) (s : System m H) : m (Except Failure Nat) := do
  match ← s.readProgram r.romPath with
  | .error e => pure (.error (.unread e))
  | .ok program =>
    match ← r.openOutput s with
    | .error fault => pure (.error (.unopened fault))
    | .ok output => r.deliver s program output

end Request

/-- How a run ended. -/
inductive Outcome
  | done
  | failed (failure : Failure)
  | misused (error : UsageError)
  /-- Nothing was asked for. -/
  | idle
  deriving DecidableEq, Repr

namespace Outcome

/-- The exit status. -/
def status : Outcome → Nat
  | done => 0
  | failed _ => 1
  | misused _ => 2
  | idle => 2

/-- What is written to standard error at the end. -/
def text : Outcome → String
  | done => ""
  | failed failure => failureText failure.text failure.causes
  | misused error =>
    "error: " ++ error.message ++ "\n\nFor more information, try '--help'.\n"
  | idle => helpOn .program

/-- All that is written to standard error in a run that reported `log`. -/
def diagnostics (o : Outcome) (threshold : Option Log.Level) (log : List Log.Message) : String :=
  String.join ((log.filter (·.isShown threshold)).map messageText) ++ o.text

end Outcome

/-- Writes a text to standard output. -/
def printText (s : System m H) (text : String) : m Outcome := do
  let _ ← s.write .standard (Text.bytes text)
  pure .done

/-- Does what was asked for. -/
def Invocation.run (s : System m H) : Invocation → m Outcome
  | nothing => pure .idle
  | help subject => printText s (helpOn subject)
  | version => printText s Command.version
  | disassemble request => do
    match ← request.perform s with
    | .error failure => pure (.failed failure)
    | .ok _ => pure .done

/-- A run of the program with the given arguments. -/
def run (s : System m H) (arguments : List String) : m Outcome :=
  match readInvocation arguments with
  | .error e => pure (.misused e)
  | .ok invocation => invocation.run s

end Chip8.Command
