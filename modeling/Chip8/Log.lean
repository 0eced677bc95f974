import Chip8.Operation

/-!
# Messages on the side

Besides their answers, operations report what they did. A report is a value like any other: an
operation that reports returns its answer together with the messages, oldest first, and whoever
runs it decides which of them to show. So whether a message appears can never change an answer.

A message is kept as what happened, not as text. Its level, the component it comes from and its
wording all follow from that.

## Main definitions

* `Log.Level`, `Log.Message`
* `Log.Message.level`, `Log.Message.source`, `Log.Message.text`
* `Logged` — an answer with the messages it came with
-/

namespace Chip8

namespace Log

/-- How much a message matters. -/
inductive Level
  | error
  | warn
  | info
  | debug
  | trace
  deriving DecidableEq, Repr

namespace Level

/-- The more a level has to say, the higher its rank. -/
def rank : Level → Nat
  | error => 1
  | warn => 2
  | info => 3
  | debug => 4
  | trace => 5

/-- The name of a level, as it is shown. -/
def name : Level → String
  | error => "ERROR"
  | warn => "WARN"
  | info => "INFO"
  | debug => "DEBUG"
  | trace => "TRACE"

end Level

/-- Something worth reporting. -/
inductive Message
  /-- The odd last byte of an image was left out of its listing. -/
  | droppedByte (byte : Byte) (address : Address)
  /-- An image was listed whole. -/
  | listed (words unknown : Nat)
  /-- A tracing engine was handed an operation. -/
  | traced (operation : Operation)
  /-- A program file was read. -/
  | loaded (size : Nat) (path : String)
  /-- A listing was delivered. -/
  | wrote (size : Nat) (destination : String)
  deriving DecidableEq, Repr

namespace Message

/-- How much a message matters follows from what it says. -/
def level : Message → Level
  | droppedByte .. => .warn
  | listed .. => .debug
  | traced _ => .trace
  | loaded .. => .debug
  | wrote .. => .info

/-- The component that speaks. -/
def source : Message → String
  | droppedByte .. => "chip8_disasm::disasm"
  | listed .. => "chip8_disasm::disasm"
  | traced _ => "chip8_disasm::machine"
  | loaded .. => "chip8_disasm::rom"
  | wrote .. => "chip8"

/-- The wording of a message. -/
def text : Message → String
  | droppedByte byte address =>
    "dropping trailing byte 0x" ++ Hex.text .lower 2 byte.toNat ++
      " at 0x" ++ Hex.text .lower 4 address.toNat
  | listed words unknown =>
    "disassembled " ++ words.repr ++ " words, " ++ unknown.repr ++ " unknown"
  | traced operation =>
    Hex.text .upper 4 operation.encode.toNat ++ " " ++ operation.text
  | loaded size path => "loaded " ++ size.repr ++ " bytes from " ++ path
  | wrote size destination => "wrote out " ++ size.repr ++ " bytes to " ++ destination

/-- Whether the message is shown to someone who asked for `threshold`, or for nothing. -/
def isShown (threshold : Option Level) (m : Message) : Bool :=
  match threshold with
  | none => false
  | some t => m.level.rank ≤ t.rank

end Message

end Log

/-- An answer and the messages it came with, oldest first. -/
structure Logged (α : Type) where
  value : α
  log : List Log.Message := []
  deriving Repr

end Chip8
