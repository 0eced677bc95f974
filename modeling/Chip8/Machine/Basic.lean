import Chip8.Hex
import Chip8.Memory

/-!
# The machine

As much of the machine as fetching needs: memory and a program counter. Registers, timers and the
screen belong to whoever executes what is fetched; see `Engine`.

Words are fetched byte by byte, so a word that lies half beyond the end of memory is refused at its
second byte. The counter is an address of the full sixteen bits and moves by two, wrapping around;
that it in fact never leaves memory by more than one place is a property of runs, not of the type.

## Main definitions

* `Machine`, `Machine.fresh`
* `Machine.Fault`, `Machine.Fault.message`
* `Machine.load`, `Machine.fetch`, `Machine.advance`
-/

namespace Chip8

/-- A machine that can fetch words. -/
structure Machine where
  memory : Memory
  /-- The address of the word to fetch next. -/
  pc : Address

namespace Machine

/-- What a machine or its engine refuses. -/
inductive Fault
  | programTooLarge (size limit : Nat)
  | outOfBounds (address : Address)
  | unknownWord (w : Word)
  deriving DecidableEq, Repr

/-- How the user is told. -/
def Fault.message : Fault → String
  | programTooLarge size limit =>
    "ROM is too large (" ++ size.repr ++ " bytes), max size is " ++ limit.repr ++ " bytes"
  | outOfBounds address =>
    "Memory access out of bounds at address 0x" ++ Hex.text .upper 4 address.toNat
  | unknownWord w => "Unknown opcode: 0x" ++ Hex.text .upper 4 w.toNat

/-- A machine that holds no program. -/
def fresh : Machine where
  memory := Memory.zero
  pc := programStart

/-- Lays a program over memory and goes to its start. -/
def load (m : Machine) (program : List Byte) : Except Fault Machine :=
  if program.length > programCapacity then
    .error (.programTooLarge program.length programCapacity)
  else
    .ok { memory := m.memory.overlay program, pc := programStart }

/-- The byte at an address. -/
def read (m : Machine) (a : Address) : Except Fault Byte :=
  match m.memory.get? a with
  | some b => .ok b
  | none => .error (.outOfBounds a)

/-- The word at the program counter. -/
def fetch (m : Machine) : Except Fault Word :=
  match m.read m.pc with
  | .error e => .error e
  | .ok high =>
    match m.read (m.pc + 1) with
    | .error e => .error e
    | .ok low => .ok (Word.ofBytes high low)

/-- The machine with its counter behind the present word. -/
def advance (m : Machine) : Machine := { m with pc := m.pc + 2 }

@[simp] theorem memory_advance (m : Machine) : m.advance.memory = m.memory := rfl

@[simp] theorem pc_advance (m : Machine) : m.advance.pc = m.pc + 2 := rfl

end Machine

end Chip8
