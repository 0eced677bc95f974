import Chip8.Instruction.Basic

/-!
# Instructions as words

`decode?` selects by the group of the word first. Groups `0`, `E` and `F` are told apart by the low
byte and group `8` by the last nibble; the other groups hold one instruction each.

The two directions are not inverse to each other on all words. In group `0` the second nibble is
not looked at, so the words `0x1E0` and `0x0E0` are the same instruction, and `encode` writes the
second of them. In every other group decoding keeps all bits.

## Main definitions

* `Arith.code`, `Arith.ofCode?` — an operation between registers as the last nibble of its word
* `Instruction.decode?` — the instruction a word stands for, if there is one
* `Instruction.encode` — the word an instruction is written as

## Main results

* `Arith.ofCode?_code`, `Arith.code_of_ofCode?` — the inverse pair for the last nibble
-/

namespace Chip8

namespace Arith

/-- The last nibble of the word. -/
def code : Arith → Nibble
  | .copy => 0x0
  | .or => 0x1
  | .and => 0x2
  | .xor => 0x3
  | .add => 0x4
  | .sub => 0x5
  | .shiftRight => 0x6
  | .subFrom => 0x7
  | .shiftLeft => 0xE

/-- The operation with this last nibble, if there is one. -/
def ofCode? (n : Nibble) : Option Arith :=
  match n with
  | 0x0#4 => some .copy
  | 0x1#4 => some .or
  | 0x2#4 => some .and
  | 0x3#4 => some .xor
  | 0x4#4 => some .add
  | 0x5#4 => some .sub
  | 0x6#4 => some .shiftRight
  | 0x7#4 => some .subFrom
  | 0xE#4 => some .shiftLeft
  | _ => none

@[simp] theorem ofCode?_code (op : Arith) : ofCode? op.code = some op := by
  cases op <;> rfl

theorem code_of_ofCode? {n : Nibble} {op : Arith} (h : ofCode? n = some op) : op.code = n := by
  revert n op
  decide +kernel

end Arith

namespace Instruction

/-- The instruction that `w` stands for, or `none` for a word that no instruction is written as. -/
def decode? (w : Word) : Option Instruction :=
  match w.group with
  | 0x0#4 =>
    match w.kk with
    | 0xE0#8 => some .clearScreen
    | 0xEE#8 => some .ret
    | _ => none
  | 0x1#4 => some (.jump w.nnn)
  | 0x2#4 => some (.call w.nnn)
  | 0x3#4 => some (.skipIfByte w.x w.kk)
  | 0x4#4 => some (.skipUnlessByte w.x w.kk)
  | 0x5#4 => some (.skipIfEqual w.x w.y w.n)
  | 0x6#4 => some (.setByte w.x w.kk)
  | 0x7#4 => some (.addByte w.x w.kk)
  | 0x8#4 => (Arith.ofCode? w.n).map (.arith w.x w.y)
  | 0x9#4 => some (.skipUnlessEqual w.x w.y w.n)
  | 0xA#4 => some (.setIndex w.nnn)
  | 0xB#4 => some (.jumpOffset w.nnn)
  | 0xC#4 => some (.random w.x w.kk)
  | 0xD#4 => some (.draw w.x w.y w.n)
  | 0xE#4 =>
    match w.kk with
    | 0x9E#8 => some (.skipIfKey w.x)
    | 0xA1#8 => some (.skipUnlessKey w.x)
    | _ => none
  | 0xF#4 =>
    match w.kk with
    | 0x07#8 => some (.readDelay w.x)
    | 0x0A#8 => some (.waitKey w.x)
    | 0x15#8 => some (.setDelay w.x)
    | 0x18#8 => some (.setSound w.x)
    | 0x1E#8 => some (.addIndex w.x)
    | 0x29#8 => some (.digitSprite w.x)
    | 0x33#8 => some (.storeDecimal w.x)
    | 0x55#8 => some (.storeRegisters w.x)
    | 0x65#8 => some (.loadRegisters w.x)
    | _ => none
  | _ => none

/-- The word an instruction is written as. -/
def encode : Instruction → Word
  | .clearScreen => 0x00E0
  | .ret => 0x00EE
  | .jump nnn => Word.ofTarget 0x1 nnn
  | .call nnn => Word.ofTarget 0x2 nnn
  | .skipIfByte x kk => Word.ofByte 0x3 x kk
  | .skipUnlessByte x kk => Word.ofByte 0x4 x kk
  | .skipIfEqual x y n => Word.ofNibbles 0x5 x y n
  | .setByte x kk => Word.ofByte 0x6 x kk
  | .addByte x kk => Word.ofByte 0x7 x kk
  | .arith x y op => Word.ofNibbles 0x8 x y op.code
  | .skipUnlessEqual x y n => Word.ofNibbles 0x9 x y n
  | .setIndex nnn => Word.ofTarget 0xA nnn
  | .jumpOffset nnn => Word.ofTarget 0xB nnn
  | .random x kk => Word.ofByte 0xC x kk
  | .draw x y n => Word.ofNibbles 0xD x y n
  | .skipIfKey x => Word.ofByte 0xE x 0x9E
  | .skipUnlessKey x => Word.ofByte 0xE x 0xA1
  | .readDelay x => Word.ofByte 0xF x 0x07
  | .waitKey x => Word.ofByte 0xF x 0x0A
  | .setDelay x => Word.ofByte 0xF x 0x15
  | .setSound x => Word.ofByte 0xF x 0x18
  | .addIndex x => Word.ofByte 0xF x 0x1E
  | .digitSprite x => Word.ofByte 0xF x 0x29
  | .storeDecimal x => Word.ofByte 0xF x 0x33
  | .storeRegisters x => Word.ofByte 0xF x 0x55
  | .loadRegisters x => Word.ofByte 0xF x 0x65

end Instruction

end Chip8
