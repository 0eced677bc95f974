import Chip8.Command.Run

/-!
# The program

The command line, run by the actual system. All decisions are made in `Command.run`; what is left
here is to ask the system and to put its refusals into words that are known elsewhere.

How much is reported is read from the environment variable `RUST_LOG`, which names a level or is
`off`; without it, everything up to `info` is. Filters for single components are not read.
-/

namespace Chip8.Program

open Files (Path System Output)

/-- The number of a refusal, whichever sign the system gives it. -/
def number (code : UInt32) : Nat :=
  if code.toNat < 0x80000000 then code.toNat else 0x100000000 - code.toNat

/-- A refusal of the actual system. -/
def faultOf (e : IO.Error) : SystemFault :=
  let plain := .other e.toString
  match e with
  | .noFileOrDirectory .. => .notFound
  | .permissionDenied _ code _ => if number code = 13 then .denied else plain
  | .inappropriateType _ code _ =>
    match number code with
    | 20 => .notDirectory
    | 21 => .isDirectory
    | _ => plain
  | .invalidArgument _ code _ => if number code = 36 then .nameTooLong else plain
  | .resourceExhausted _ code _ => if number code = 28 then .noSpace else plain
  | _ => plain

/-- Does something that the actual system may refuse. -/
def attempt {α : Type} (action : IO α) : IO (Except SystemFault α) := do
  try
    return .ok (← action)
  catch e =>
    return .error (faultOf e)

/-- Does something with a path, if the text is one. -/
def attemptAt {α : Type} (text : String) (action : IO α) : IO (Except SystemFault α) :=
  match Path.parse text with
  | .error fault => pure (.error fault)
  | .ok _ => attempt action

/-- The stream or file behind an output. -/
def streamOf : Output IO.FS.Handle → IO IO.FS.Stream
  | .standard => IO.getStdout
  | .file handle => pure (IO.FS.Stream.ofHandle handle)

/-- The actual system, showing messages up to `threshold`. -/
def actual (threshold : Option Log.Level) : System IO IO.FS.Handle where
  read path := attemptAt path do
    let content ← IO.FS.readBinFile path
    return content.data.toList.map UInt8.toBitVec
  create path := attemptAt path (IO.FS.Handle.mk path .write)
  write output bytes := attempt do
    let stream ← streamOf output
    stream.write (ByteArray.mk (bytes.map UInt8.ofBitVec).toArray)
    stream.flush
  report message := do
    if message.isShown threshold then IO.eprint (Command.messageText message)

/-- The level that a word asks for, in letters of either case. No word at all asks for errors, and a
word that is no level for nothing. -/
def thresholdOf (word : String) : Option Log.Level :=
  match word.toLower with
  | "" => some .error
  | "error" => some .error
  | "warn" => some .warn
  | "info" => some .info
  | "debug" => some .debug
  | "trace" => some .trace
  | _ => none

end Chip8.Program

/-- Runs the program with the given arguments and returns its exit status. -/
def main (arguments : List String) : IO UInt32 := do
  let threshold := Chip8.Program.thresholdOf ((← IO.getEnv "RUST_LOG").getD "info")
  let outcome ← Chip8.Command.run (Chip8.Program.actual threshold) arguments
  IO.eprint outcome.text
  return outcome.status.toUInt32
