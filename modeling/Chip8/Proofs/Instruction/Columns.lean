import Chip8.Proofs.Instruction.Text

/-!
# The two columns of an instruction

The text of an instruction is a mnemonic, padded to a column of ten, and behind one more blank its
operands, if there are any. Padding only ever adds blanks. So it is not the padding that keeps the
columns in their places but two facts about the parts: no mnemonic is longer than its column, and
none holds a blank. From these two the columns are read back.

Whether anything stands behind the mnemonic column is decided by the list of operands. It could as
well be decided by their text, since no operand is written as nothing.

## Main definitions

* `Instruction.mnemonicOf`, `Instruction.operandTextOf` — the columns of a text

## Main results

* `Instruction.length_mnemonicColumn` — the mnemonic column is filled exactly
* `Instruction.toList_text` — the text, column by column
* `Instruction.operandText_eq_empty_iff`, `Instruction.operands_eq_nil_iff` — when it ends behind
  the mnemonic column
* `Instruction.mnemonicOf_text`, `Instruction.operandTextOf_text` — the columns are read back
-/

namespace Chip8

theorem Operand.text_ne_empty (o : Operand) : o.text ≠ "" := by
  cases o <;> simp [text]

namespace Instruction

/-! ### The mnemonic column -/

theorem toList_mnemonicColumn (i : Instruction) :
    i.mnemonicColumn.toList =
      i.mnemonic.toList ++ List.replicate (mnemonicWidth - i.mnemonic.length) ' ' := by
  simp [mnemonicColumn]

/-- **The mnemonic column is filled exactly**, since no mnemonic overflows it. -/
theorem length_mnemonicColumn (i : Instruction) :
    i.mnemonicColumn.toList.length = mnemonicWidth := by
  have hle := i.length_mnemonic_le
  rw [toList_mnemonicColumn, List.length_append, List.length_replicate, String.length_toList]
  omega

theorem takeWhile_mnemonicColumn (i : Instruction) :
    i.mnemonicColumn.toList.takeWhile (· ≠ ' ') = i.mnemonic.toList := by
  have hletters : ∀ c ∈ i.mnemonic.toList, decide (c ≠ ' ') = true := by
    intro c hc
    refine decide_eq_true ?_
    rintro rfl
    exact i.not_mem_mnemonic (by decide) hc
  rw [toList_mnemonicColumn, List.takeWhile_append_of_pos hletters]
  simp

/-! ### The operand column -/

theorem operandText_eq_empty_iff (i : Instruction) : i.operandText = "" ↔ i.operands = [] := by
  rw [operandText]
  cases i.operands with
  | nil => simp
  | cons o os =>
    cases os <;> simp [o.text_ne_empty]

/-- Two instructions take no operands. -/
theorem operands_eq_nil_iff (i : Instruction) : i.operands = [] ↔ i = clearScreen ∨ i = ret := by
  cases i with
  | arith x y op => cases op <;> simp [operands, Arith.isShift]
  | _ => simp [operands]

/-- **The text, column by column.** -/
theorem toList_text (i : Instruction) :
    i.text.toList =
      i.mnemonicColumn.toList ++
        if i.operandText = "" then [] else ' ' :: i.operandText.toList := by
  have hblank : " ".toList = [' '] := rfl
  rw [text]
  by_cases h : i.operands = []
  · simp [h, (operandText_eq_empty_iff i).mpr h]
  · simp [h, mt (operandText_eq_empty_iff i).mp h, hblank]

/-! ### Reading the columns -/

/-- What stands in the mnemonic column of a text, up to the first blank. -/
def mnemonicOf (text : List Char) : String :=
  String.ofList ((text.take mnemonicWidth).takeWhile (· ≠ ' '))

/-- What stands in the operand column of a text, behind the blank in front of it. -/
def operandTextOf (text : List Char) : String := String.ofList (text.drop (mnemonicWidth + 1))

theorem take_text (i : Instruction) :
    i.text.toList.take mnemonicWidth = i.mnemonicColumn.toList := by
  rw [toList_text]
  exact List.take_left' i.length_mnemonicColumn

theorem drop_text (i : Instruction) :
    i.text.toList.drop mnemonicWidth =
      if i.operandText = "" then [] else ' ' :: i.operandText.toList := by
  rw [toList_text]
  exact List.drop_left' i.length_mnemonicColumn

theorem mnemonicOf_text (i : Instruction) : mnemonicOf i.text.toList = i.mnemonic := by
  rw [mnemonicOf, take_text, takeWhile_mnemonicColumn, String.ofList_toList]

theorem operandTextOf_text (i : Instruction) : operandTextOf i.text.toList = i.operandText := by
  rw [operandTextOf, ← List.drop_drop, drop_text]
  split
  · rename_i h
    exact h.symm
  · exact String.ofList_toList

end Instruction

end Chip8
