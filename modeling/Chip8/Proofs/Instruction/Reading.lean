import Chip8.Proofs.Instruction.Canonical
import Chip8.Proofs.Instruction.Columns

/-!
# What the text of an instruction tells

Many instructions share a mnemonic, and it is the punctuation of their operands alone that tells
these apart. So the text is read in two parts. First the columns are taken apart, the operand column
further at its commas, and each operand is read. Then the mnemonic and the list of operands select
the instruction.

Nothing gets lost on the way from the mnemonic and the operands to the text. What is lost has been
lost before: the register comparisons keep a last digit that is no operand of theirs, and the two
shifts a second register. `Instruction.shown` is the instruction with these cleared, and two
instructions have one text exactly if that makes them equal.

## Digits of a word

The same can be said of words that are instructions. `Word.shown` clears the digits in which nothing
is kept that the text shows. Besides those fields this is the second digit of group `0`, which is
lost already when the word is read.

## Main definitions

* `Operand.read?` — the operand that is written as a text
* `Instruction.shown` — an instruction without the fields that are not shown
* `Instruction.ofColumns?` — the instruction with a mnemonic and operands
* `Word.shown`, `Word.IsShownAs` — a word without the digits that are not shown, and words with one
  text

## Main results

* `Operand.text_injective`, `Instruction.operandText_eq_iff` — operands, one and all
* `Instruction.text_eq_iff_columns`, `Instruction.ofColumns?_shown` — the two parts
* `Instruction.text_eq_iff` — when two instructions have one text
* `Word.operation_text_eq_iff` — when two words have one text
-/

namespace Chip8

/-! ### Operands -/

namespace Operand

open Hex (digits)

/-- The field that is written as some digits. -/
def readField? (width : Nat) (ds : List Char) : Option (BitVec width) :=
  match Command.readNumber 16 ds with
  | .ok v => some (BitVec.ofNat width v)
  | .error _ => none

theorem readField?_digits {width k : Nat} (v : BitVec width) (hpos : 0 < k)
    (hk : v.toNat < Nat.pow 16 k) (hv : v.toNat < 0x10000) :
    readField? width (digits .upper k v.toNat) = some v := by
  rw [readField?, Command.readNumber_digits .upper hpos hk hv]
  simp

/-- The operand that is written as a text. -/
def read? : List Char → Option Operand
  | ['I'] => some index
  | ['(', 'I', ')'] => some memory
  | ['D', 'E', 'L', 'A', 'Y'] => some delay
  | ['S', 'O', 'U', 'N', 'D'] => some sound
  | ['V', a] => (readField? 4 [a]).map register
  | ['V', '0', '-', 'V', a] => (readField? 4 [a]).map registersTo
  | ['$', a, b, c] => (readField? 12 [a, b, c]).map target
  | ['$', a, b, c, '(', 'V', '0', ')'] => (readField? 12 [a, b, c]).map targetOffset
  | ['#', '$', a, b, c] => (readField? 12 [a, b, c]).map targetConstant
  | ['#', '$', a, b] => (readField? 8 [a, b]).map byteConstant
  | ['#', '$', a] => (readField? 4 [a]).map nibbleConstant
  | _ => none

/-- **An operand is read back.** -/
theorem read?_text (o : Operand) : read? o.text.toList = some o := by
  have hnibble : ∀ x : Nibble, readField? 4 (digits .upper 1 x.toNat) = some x :=
    fun x => readField?_digits x (by decide) x.isLt (Nat.lt_trans x.isLt (by decide))
  have hbyte : ∀ kk : Byte, readField? 8 (digits .upper 2 kk.toNat) = some kk :=
    fun kk => readField?_digits kk (by decide) kk.isLt (Nat.lt_trans kk.isLt (by decide))
  have htarget : ∀ nnn : Target, readField? 12 (digits .upper 3 nnn.toNat) = some nnn :=
    fun nnn => readField?_digits nnn (by decide) nnn.isLt (Nat.lt_trans nnn.isLt (by decide))
  cases o with
  | index | memory | delay | sound => rfl
  | register x | registersTo x | nibbleConstant x =>
    simp only [text, String.toList_append, Hex.toList_text]
    exact congrArg (Option.map _) (hnibble x)
  | byteConstant kk =>
    simp only [text, String.toList_append, Hex.toList_text]
    exact congrArg (Option.map _) (hbyte kk)
  | target nnn | targetOffset nnn | targetConstant nnn =>
    simp only [text, String.toList_append, Hex.toList_text]
    exact congrArg (Option.map _) (htarget nnn)

theorem text_injective : Function.Injective text := by
  intro o o' h
  have hread := congrArg (fun s => read? s.toList) h
  simp only [read?_text] at hread
  exact Option.some.inj hread

theorem comma_not_mem_text (o : Operand) : ',' ∉ o.text.toList := by
  have hdigits : ∀ k v, ',' ∉ digits .upper k v := Command.not_mem_digits rfl .upper
  cases o <;>
    simp only [text, String.toList_append, Hex.toList_text, List.mem_append, hdigits, or_false] <;>
    decide

end Operand

namespace Instruction

/-! ### The two parts of a text -/

/-- The operands are found between the commas. -/
theorem splitOn_operandText {i : Instruction} (h : i.operands ≠ []) :
    i.operandText.toList.splitOn ',' = i.operands.map fun o => o.text.toList := by
  have hcomma : ",".toList = [','] := rfl
  rw [operandText, String.toList_intercalate, hcomma, List.map_map]
  refine List.splitOn_intercalate ',' (fun p hp => ?_) (mt List.map_eq_nil_iff.mp h)
  obtain ⟨o, -, rfl⟩ := List.mem_map.mp hp
  exact o.comma_not_mem_text

/-- **The operand column tells the operands.** -/
theorem operandText_eq_iff (i j : Instruction) :
    i.operandText = j.operandText ↔ i.operands = j.operands := by
  constructor
  · intro h
    by_cases hi : i.operands = []
    · rw [hi, eq_comm, ← operandText_eq_empty_iff, ← h, operandText_eq_empty_iff]
      exact hi
    · have hj : j.operands ≠ [] := by
        rwa [ne_eq, ← operandText_eq_empty_iff, ← h, operandText_eq_empty_iff]
      have hsplit := congrArg (fun s => s.toList.splitOn ',') h
      simp only [splitOn_operandText hi, splitOn_operandText hj] at hsplit
      refine (List.map_inj_right ?_).mp hsplit
      intro o o' ho
      exact Operand.text_injective (String.toList_inj.mp ho)
  · intro h
    rw [operandText, operandText, h]

/-- **The text tells the mnemonic and the operands**, and nothing besides. -/
theorem text_eq_iff_columns (i j : Instruction) :
    i.text = j.text ↔ i.mnemonic = j.mnemonic ∧ i.operands = j.operands := by
  rw [← operandText_eq_iff]
  constructor
  · intro h
    rw [← i.mnemonicOf_text, ← i.operandTextOf_text, h]
    exact ⟨j.mnemonicOf_text, j.operandTextOf_text⟩
  · rintro ⟨hmnemonic, hoperands⟩
    rw [← String.toList_inj, toList_text, toList_text, toList_mnemonicColumn,
      toList_mnemonicColumn, hmnemonic, hoperands]

/-! ### The instruction with a mnemonic and operands -/

/-- An instruction without the fields that its text does not show. -/
def shown : Instruction → Instruction
  | skipIfEqual x y _ => skipIfEqual x y 0
  | skipUnlessEqual x y _ => skipUnlessEqual x y 0
  | arith x _ .shiftRight => arith x 0 .shiftRight
  | arith x _ .shiftLeft => arith x 0 .shiftLeft
  | i => i

/-- The instruction with a mnemonic and operands. Fields that are not shown are zero. -/
def ofColumns? : String → List Operand → Option Instruction
  | "CLS", [] => some clearScreen
  | "RTS", [] => some ret
  | "JUMP", [.target nnn] => some (jump nnn)
  | "JUMP", [.targetOffset nnn] => some (jumpOffset nnn)
  | "CALL", [.target nnn] => some (call nnn)
  | "SKIP.EQ", [.register x, .byteConstant kk] => some (skipIfByte x kk)
  | "SKIP.NE", [.register x, .byteConstant kk] => some (skipUnlessByte x kk)
  | "SKIP.EQ", [.register x, .register y] => some (skipIfEqual x y 0)
  | "SKIP.NE", [.register x, .register y] => some (skipUnlessEqual x y 0)
  | "MVI", [.register x, .byteConstant kk] => some (setByte x kk)
  | "MVI", [.index, .targetConstant nnn] => some (setIndex nnn)
  | "ADI", [.register x, .byteConstant kk] => some (addByte x kk)
  | "ADD", [.index, .register x] => some (addIndex x)
  | "MOV", [.register x, .register y] => some (arith x y .copy)
  | "OR", [.register x, .register y] => some (arith x y .or)
  | "AND", [.register x, .register y] => some (arith x y .and)
  | "XOR", [.register x, .register y] => some (arith x y .xor)
  | "ADD.", [.register x, .register y] => some (arith x y .add)
  | "SUB.", [.register x, .register y] => some (arith x y .sub)
  | "SUBB.", [.register x, .register y] => some (arith x y .subFrom)
  | "SHR.", [.register x] => some (arith x 0 .shiftRight)
  | "SHL.", [.register x] => some (arith x 0 .shiftLeft)
  | "RND", [.register x, .byteConstant kk] => some (random x kk)
  | "SPRITE.", [.register x, .register y, .nibbleConstant n] => some (draw x y n)
  | "SKIP.KEY", [.register x] => some (skipIfKey x)
  | "SKIP.NOKEY", [.register x] => some (skipUnlessKey x)
  | "WAITKEY", [.register x] => some (waitKey x)
  | "MOV", [.register x, .delay] => some (readDelay x)
  | "MOV", [.delay, .register x] => some (setDelay x)
  | "MOV", [.sound, .register x] => some (setSound x)
  | "SPRITECHAR", [.register x] => some (digitSprite x)
  | "MOVBCD", [.register x] => some (storeDecimal x)
  | "MOVM", [.memory, .registersTo x] => some (storeRegisters x)
  | "MOVM", [.registersTo x, .memory] => some (loadRegisters x)
  | _, _ => none

/-- **The columns select the instruction.** -/
theorem ofColumns?_shown (i : Instruction) : ofColumns? i.mnemonic i.operands = some i.shown := by
  cases i with
  | arith x y op => cases op <;> rfl
  | _ => rfl

theorem mnemonic_shown (i : Instruction) : i.shown.mnemonic = i.mnemonic := by
  cases i with
  | arith x y op => cases op <;> rfl
  | _ => rfl

theorem operands_shown (i : Instruction) : i.shown.operands = i.operands := by
  cases i with
  | arith x y op => cases op <;> rfl
  | _ => rfl

/-- **When two instructions have one text**: they are equal but for fields that are not shown. -/
theorem text_eq_iff (i j : Instruction) : i.text = j.text ↔ i.shown = j.shown := by
  rw [text_eq_iff_columns]
  constructor
  · rintro ⟨hmnemonic, hoperands⟩
    have hselected := i.ofColumns?_shown
    rw [hmnemonic, hoperands, j.ofColumns?_shown] at hselected
    exact (Option.some.inj hselected).symm
  · intro h
    rw [← i.mnemonic_shown, ← i.operands_shown, h]
    exact ⟨j.mnemonic_shown, j.operands_shown⟩

/-- The marker is not the text of an instruction: no mnemonic has small letters. -/
theorem text_ne_unknownMarker (i : Instruction) : i.text ≠ unknownMarker := by
  intro h
  have hmarker : mnemonicOf unknownMarker.toList = "unknown" := by decide
  have hmnemonic : i.mnemonic = "unknown" := by rw [← i.mnemonicOf_text, h, hmarker]
  have hsmall : 'u' ∉ i.mnemonic.toList := i.not_mem_mnemonic (by decide)
  rw [hmnemonic] at hsmall
  exact absurd hsmall (by decide)

end Instruction

/-! ### Words -/

namespace Word

/-- A word without the digits that the text of its instruction does not show: the second one in
group `0`, the last one of the comparisons in groups `5` and `9`, and the third one of the two
shifts in group `8`. -/
def shown (w : Word) : Word :=
  match w.group with
  | 0x0#4 => ofNibbles 0x0 0 w.y w.n
  | 0x5#4 => ofNibbles 0x5 w.x w.y 0
  | 0x8#4 => if w.n = 0x6 ∨ w.n = 0xE then ofNibbles 0x8 w.x 0 w.n else w
  | 0x9#4 => ofNibbles 0x9 w.x w.y 0
  | _ => w

/-- Both words are instructions and differ at most in digits that are not shown, or neither is an
instruction. -/
def IsShownAs (w w' : Word) : Prop :=
  (Instruction.decode? w).isSome ∧ (Instruction.decode? w').isSome ∧ w.shown = w'.shown ∨
    Instruction.decode? w = none ∧ Instruction.decode? w' = none

theorem shown_encode (i : Instruction) : i.encode.shown = i.shown.encode := by
  cases i with
  | arith x y op => cases op <;> simp [Instruction.encode, Instruction.shown, shown, Arith.code]
  | _ => simp [Instruction.encode, Instruction.shown, shown] <;> rfl

/-- The digit that is lost in reading is not shown either. -/
theorem shown_canonical (w : Word) : w.canonical.shown = w.shown := by
  by_cases h : w.group = 0
  · have hgroup : w.group = 0x0#4 := h
    have hbyte : ofByte 0 0 w.kk = ofNibbles 0 0 w.y w.n := by
      refine BitVec.eq_of_toNat_eq ?_
      rw [toNat_ofByte, toNat_ofNibbles, toNat_kk, toNat_y, toNat_n]
      omega
    rw [canonical_of_group h, hbyte]
    simp [shown, hgroup]
  · rw [canonical_of_group_ne h]

theorem shown_of_decode? {w : Word} {i : Instruction} (h : Instruction.decode? w = some i) :
    w.shown = i.shown.encode := by
  rw [← shown_encode, Instruction.encode_of_decode? h, shown_canonical]

/-- **When two words have one text.** -/
theorem operation_text_eq_iff (w w' : Word) :
    (Operation.ofWord w).text = (Operation.ofWord w').text ↔ w.IsShownAs w' := by
  rw [IsShownAs]
  cases h : Instruction.decode? w with
  | some i =>
    rw [Operation.ofWord_of_decode? h]
    cases h' : Instruction.decode? w' with
    | some j =>
      rw [Operation.ofWord_of_decode? h', shown_of_decode? h, shown_of_decode? h',
        Instruction.encode_injective.eq_iff]
      simpa [Operation.text] using i.text_eq_iff j
    | none =>
      rw [Operation.ofWord_of_decode?_none h']
      simpa [Operation.text] using i.text_ne_unknownMarker
  | none =>
    rw [Operation.ofWord_of_decode?_none h]
    cases h' : Instruction.decode? w' with
    | some j =>
      rw [Operation.ofWord_of_decode? h']
      simpa [Operation.text] using j.text_ne_unknownMarker.symm
    | none =>
      rw [Operation.ofWord_of_decode?_none h']
      simp [Operation.text]

end Word

end Chip8
