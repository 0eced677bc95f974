import Chip8.Hex
import Chip8.Instruction.Basic

/-!
# The text of an instruction

An instruction is written as its mnemonic, padded to a column of ten, and its operands, separated by
commas. Two instructions take no operands, and then nothing follows the padding.

Operands are a small type of their own rather than ready text. Each kind of operand has its own
punctuation, and it is the punctuation alone that tells apart instructions of one mnemonic.

## Main definitions

* `Operand`, `Operand.text` — one operand
* `Instruction.mnemonic`, `Instruction.operands` — the two columns
* `Instruction.operandText`, `Instruction.text`

## Main results

* `Instruction.length_mnemonic_le` — no mnemonic overflows its column
-/

namespace Chip8

/-- What can stand in the operand column. -/
inductive Operand
  | register (x : Nibble)
  /-- The registers from the first one to `x`. -/
  | registersTo (x : Nibble)
  | index
  /-- The memory that the index points at. -/
  | memory
  | delay
  | sound
  | target (nnn : Target)
  /-- A target that the first register is added to. -/
  | targetOffset (nnn : Target)
  | targetConstant (nnn : Target)
  | byteConstant (kk : Byte)
  | nibbleConstant (n : Nibble)
  deriving DecidableEq, Repr

namespace Operand

/-- An operand with its punctuation. -/
def text : Operand → String
  | register x => "V" ++ Hex.text .upper 1 x.toNat
  | registersTo x => "V0-V" ++ Hex.text .upper 1 x.toNat
  | index => "I"
  | memory => "(I)"
  | delay => "DELAY"
  | sound => "SOUND"
  | target nnn => "$" ++ Hex.text .upper 3 nnn.toNat
  | targetOffset nnn => "$" ++ Hex.text .upper 3 nnn.toNat ++ "(V0)"
  | targetConstant nnn => "#$" ++ Hex.text .upper 3 nnn.toNat
  | byteConstant kk => "#$" ++ Hex.text .upper 2 kk.toNat
  | nibbleConstant n => "#$" ++ Hex.text .upper 1 n.toNat

end Operand

/-- The mnemonic of an operation between two registers. -/
def Arith.mnemonic : Arith → String
  | .copy => "MOV"
  | .or => "OR"
  | .and => "AND"
  | .xor => "XOR"
  | .add => "ADD."
  | .sub => "SUB."
  | .shiftRight => "SHR."
  | .subFrom => "SUBB."
  | .shiftLeft => "SHL."

namespace Instruction

/-- What an instruction is called. Several instructions share a name. -/
def mnemonic : Instruction → String
  | clearScreen => "CLS"
  | ret => "RTS"
  | jump _ => "JUMP"
  | jumpOffset _ => "JUMP"
  | call _ => "CALL"
  | skipIfByte .. => "SKIP.EQ"
  | skipUnlessByte .. => "SKIP.NE"
  | skipIfEqual .. => "SKIP.EQ"
  | skipUnlessEqual .. => "SKIP.NE"
  | setByte .. => "MVI"
  | addByte .. => "ADI"
  | setIndex _ => "MVI"
  | addIndex _ => "ADD"
  | arith _ _ op => op.mnemonic
  | random .. => "RND"
  | draw .. => "SPRITE."
  | skipIfKey _ => "SKIP.KEY"
  | skipUnlessKey _ => "SKIP.NOKEY"
  | waitKey _ => "WAITKEY"
  | readDelay _ => "MOV"
  | setDelay _ => "MOV"
  | setSound _ => "MOV"
  | digitSprite _ => "SPRITECHAR"
  | storeDecimal _ => "MOVBCD"
  | storeRegisters _ => "MOVM"
  | loadRegisters _ => "MOVM"

/-- The operands as they are listed, which need not be all that the word holds. -/
def operands : Instruction → List Operand
  | clearScreen => []
  | ret => []
  | jump nnn => [.target nnn]
  | jumpOffset nnn => [.targetOffset nnn]
  | call nnn => [.target nnn]
  | skipIfByte x kk => [.register x, .byteConstant kk]
  | skipUnlessByte x kk => [.register x, .byteConstant kk]
  | skipIfEqual x y _ => [.register x, .register y]
  | skipUnlessEqual x y _ => [.register x, .register y]
  | setByte x kk => [.register x, .byteConstant kk]
  | addByte x kk => [.register x, .byteConstant kk]
  | setIndex nnn => [.index, .targetConstant nnn]
  | addIndex x => [.index, .register x]
  | arith x y op => if op.isShift then [.register x] else [.register x, .register y]
  | random x kk => [.register x, .byteConstant kk]
  | draw x y n => [.register x, .register y, .nibbleConstant n]
  | skipIfKey x => [.register x]
  | skipUnlessKey x => [.register x]
  | waitKey x => [.register x]
  | readDelay x => [.register x, .delay]
  | setDelay x => [.delay, .register x]
  | setSound x => [.sound, .register x]
  | digitSprite x => [.register x]
  | storeDecimal x => [.register x]
  | storeRegisters x => [.memory, .registersTo x]
  | loadRegisters x => [.registersTo x, .memory]

/-- The operand column; empty for an instruction that takes none. -/
def operandText (i : Instruction) : String :=
  ",".intercalate (i.operands.map Operand.text)

/-- The width of the mnemonic column. -/
def mnemonicWidth : Nat := 10

/-- The mnemonic, followed by blanks up to the width of its column. -/
def mnemonicColumn (i : Instruction) : String :=
  i.mnemonic ++ String.ofList (List.replicate (mnemonicWidth - i.mnemonic.length) ' ')

/-- The mnemonic column, and after a blank the operands if there are any. -/
def text (i : Instruction) : String :=
  if i.operands.isEmpty then i.mnemonicColumn else i.mnemonicColumn ++ " " ++ i.operandText

theorem length_mnemonic_le (i : Instruction) : i.mnemonic.length ≤ mnemonicWidth := by
  cases i with
  | arith x y op => cases op <;> simp only [mnemonic, Arith.mnemonic] <;> decide
  | _ =>
    simp only [mnemonic]
    decide

end Instruction

end Chip8
