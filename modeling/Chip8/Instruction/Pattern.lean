import Chip8.Instruction.Basic

/-!
# The instruction set as a table

Each row gives the bits that are fixed in the words of an instruction, and how the instruction is
read off such a word. The table says what the instruction set is without any order of tests: no
word is covered by two rows, so the rows could stand in any order.

It is not how words are decoded; see `Instruction.decode?` for that. It is what decoding is
measured against.

## Main definitions

* `Pattern`, `Pattern.covers`
* `Pattern.all` — the instruction set
-/

namespace Chip8

/-- The words that agree with `value` in the bits of `mask`, and the instruction they stand for. -/
structure Pattern where
  value : Word
  mask : Word
  instruction : Word → Instruction

namespace Pattern

/-- Whether a word has the fixed bits. -/
def covers (p : Pattern) (w : Word) : Bool := w &&& p.mask == p.value

/-- A row whose group alone is fixed. -/
def ofGroup (value : Word) (instruction : Word → Instruction) : Pattern :=
  { value, mask := 0xF000, instruction }

/-- A row whose group and last nibble are fixed. -/
def ofNibble (value : Word) (op : Arith) : Pattern :=
  { value, mask := 0xF00F, instruction := fun w => .arith w.x w.y op }

/-- A row whose group and low byte are fixed. -/
def ofByte (value : Word) (instruction : Word → Instruction) : Pattern :=
  { value, mask := 0xF0FF, instruction }

/-- The instruction set, ordered by the fixed bits. -/
def all : List Pattern :=
  [ofByte 0x00E0 fun _ => .clearScreen,
    ofByte 0x00EE fun _ => .ret,
    ofGroup 0x1000 fun w => .jump w.nnn,
    ofGroup 0x2000 fun w => .call w.nnn,
    ofGroup 0x3000 fun w => .skipIfByte w.x w.kk,
    ofGroup 0x4000 fun w => .skipUnlessByte w.x w.kk,
    ofGroup 0x5000 fun w => .skipIfEqual w.x w.y w.n,
    ofGroup 0x6000 fun w => .setByte w.x w.kk,
    ofGroup 0x7000 fun w => .addByte w.x w.kk,
    ofNibble 0x8000 .copy,
    ofNibble 0x8001 .or,
    ofNibble 0x8002 .and,
    ofNibble 0x8003 .xor,
    ofNibble 0x8004 .add,
    ofNibble 0x8005 .sub,
    ofNibble 0x8006 .shiftRight,
    ofNibble 0x8007 .subFrom,
    ofNibble 0x800E .shiftLeft,
    ofGroup 0x9000 fun w => .skipUnlessEqual w.x w.y w.n,
    ofGroup 0xA000 fun w => .setIndex w.nnn,
    ofGroup 0xB000 fun w => .jumpOffset w.nnn,
    ofGroup 0xC000 fun w => .random w.x w.kk,
    ofGroup 0xD000 fun w => .draw w.x w.y w.n,
    ofByte 0xE09E fun w => .skipIfKey w.x,
    ofByte 0xE0A1 fun w => .skipUnlessKey w.x,
    ofByte 0xF007 fun w => .readDelay w.x,
    ofByte 0xF00A fun w => .waitKey w.x,
    ofByte 0xF015 fun w => .setDelay w.x,
    ofByte 0xF018 fun w => .setSound w.x,
    ofByte 0xF01E fun w => .addIndex w.x,
    ofByte 0xF029 fun w => .digitSprite w.x,
    ofByte 0xF033 fun w => .storeDecimal w.x,
    ofByte 0xF055 fun w => .storeRegisters w.x,
    ofByte 0xF065 fun w => .loadRegisters w.x]

end Pattern

end Chip8
