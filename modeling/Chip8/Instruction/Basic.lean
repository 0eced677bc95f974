import Chip8.Word

/-!
# Instructions

An instruction is a choice of operation together with its operands. The operands are typed by
their width, so every value of `Instruction` can be written as a word; see `Instruction.encode`.

Two operands have no meaning for the machine and are kept all the same, since a listing has to
give the word back: `n` of the register comparisons, and `y` of the two shifts.

## Main definitions

* `Arith` — the nine operations between two registers
* `Instruction`
-/

namespace Chip8

/-- The operations between two registers; the first one takes the result. -/
inductive Arith
  | copy
  | or
  | and
  | xor
  | add
  | sub
  | shiftRight
  /-- The second register minus the first. -/
  | subFrom
  | shiftLeft
  deriving DecidableEq, Repr

/-- Whether the operation looks at its first register only. -/
def Arith.isShift : Arith → Bool
  | .shiftRight => true
  | .shiftLeft => true
  | _ => false

/-- An instruction with its operands. -/
inductive Instruction
  | clearScreen
  | ret
  | jump (nnn : Target)
  /-- Jump to the target plus the first register. -/
  | jumpOffset (nnn : Target)
  | call (nnn : Target)
  | skipIfByte (x : Nibble) (kk : Byte)
  | skipUnlessByte (x : Nibble) (kk : Byte)
  | skipIfEqual (x y n : Nibble)
  | skipUnlessEqual (x y n : Nibble)
  | setByte (x : Nibble) (kk : Byte)
  | addByte (x : Nibble) (kk : Byte)
  | setIndex (nnn : Target)
  | addIndex (x : Nibble)
  | arith (x y : Nibble) (op : Arith)
  /-- A random byte, masked by `kk`. -/
  | random (x : Nibble) (kk : Byte)
  /-- A sprite of `n` rows at the position held in two registers. -/
  | draw (x y n : Nibble)
  | skipIfKey (x : Nibble)
  | skipUnlessKey (x : Nibble)
  | waitKey (x : Nibble)
  | readDelay (x : Nibble)
  | setDelay (x : Nibble)
  | setSound (x : Nibble)
  /-- Point the index at the built-in sprite of a digit. -/
  | digitSprite (x : Nibble)
  /-- Store the three decimal digits of a register. -/
  | storeDecimal (x : Nibble)
  /-- Store the registers up to `x` at the index. -/
  | storeRegisters (x : Nibble)
  /-- Load the registers up to `x` from the index. -/
  | loadRegisters (x : Nibble)
  deriving DecidableEq, Repr

end Chip8
