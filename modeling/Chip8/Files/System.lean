import Chip8.Files.Disk
import Chip8.Log

/-!
# The system a program runs on

A program asks four things of the system below it: to read a file, to create one, to write, and to
report. `System` lists them for any monad, so that a program is written once and is run either by
the actual system or by `World`, in which everything that happens is a value.

A program file is read whole, and that it was read is reported.

## Main definitions

* `Files.Output` — standard output or a created file
* `Files.System`
* `Files.World`, `Files.World.system` — a disk, and what has been written and reported
* `Files.System.readProgram`, `Files.ReadError` — reading a program file
-/

namespace Chip8.Files

/-- Where to write; `H` stands for an open file. -/
inductive Output (H : Type)
  | standard
  | file (handle : H)

/-- What a program may ask for. -/
structure System (m : Type → Type) (H : Type) where
  read : String → m (Except SystemFault (List Byte))
  /-- Empties a file or makes a new one, and opens it. -/
  create : String → m (Except SystemFault H)
  write : Output H → List Byte → m (Except SystemFault Unit)
  report : Log.Message → m Unit

namespace System

variable {m : Type → Type} {H : Type} [Monad m]

/-- Reports messages in order. -/
def reportAll (s : System m H) : List Log.Message → m Unit
  | [] => pure ()
  | message :: rest => do
    s.report message
    s.reportAll rest

end System

/-- Everything a program can see or change. -/
structure World where
  disk : Disk
  /-- What has been written to standard output. -/
  output : List Byte := []
  /-- What has been reported, oldest first. -/
  log : List Log.Message := []
  deriving DecidableEq, Repr

namespace World

/-- Reads a file of the disk. -/
def read (w : World) (path : String) : Except SystemFault (List Byte) × World :=
  (w.disk.read path, w)

/-- Creates or empties a file of the disk. -/
def create (w : World) (path : String) : Except SystemFault Location × World :=
  match w.disk.create path with
  | .error fault => (.error fault, w)
  | .ok (disk, l) => (.ok l, { w with disk })

/-- Adds bytes to an output. -/
def write (w : World) (bytes : List Byte) : Output Location → Except SystemFault Unit × World
  | .standard => (.ok (), { w with output := w.output ++ bytes })
  | .file l =>
    match w.disk.write l bytes with
    | .error fault => (.error fault, w)
    | .ok disk => (.ok (), { w with disk })

/-- Adds a message to those that have been reported. -/
def report (w : World) (message : Log.Message) : World := { w with log := w.log ++ [message] }

/-- The system whose state is a world. -/
def system : System (StateM World) Location where
  read path w := w.read path
  create path w := w.create path
  write output bytes w := w.write bytes output
  report message w := ((), w.report message)

end World

/-! ### Program files -/

/-- A program file that could not be read. -/
structure ReadError where
  path : String
  fault : SystemFault
  deriving DecidableEq, Repr

/-- How the user is told, without the cause. -/
def ReadError.message (e : ReadError) : String := "failed to read ROM file " ++ e.path

/-- Reads a program file whole. -/
def System.readProgram {m : Type → Type} {H : Type} [Monad m] (s : System m H) (path : String) :
    m (Except ReadError (List Byte)) := do
  match ← s.read path with
  | .error fault => pure (.error { path, fault })
  | .ok bytes => do
    s.report (.loaded bytes.length path)
    pure (.ok bytes)

end Chip8.Files
