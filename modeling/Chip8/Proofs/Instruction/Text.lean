import Chip8.Instruction.Text
import Chip8.Proofs.Hex

/-!
# What instructions are written with

The text of an instruction goes into a line of its own, so it must not hold a line break. Words that
are no instructions are marked in small letters, and so it had better hold none of these either.
Nothing in the type of a text says so. Both follow from what mnemonics and operands are made of.

## Main definitions

* `Text.Unbroken` — a text without a line break
* `Instruction.isMnemonicChar`, `Instruction.isTextChar` — what mnemonics and whole texts are made
  of

## Main results

* `Text.unbroken_append`, `Text.all_intercalate` — texts put together
* `Instruction.not_mem_mnemonic`, `Instruction.not_mem_text` — what is not in a mnemonic or a text
* `Instruction.unbroken_text` — so an instruction is written on one line
-/

namespace Chip8

namespace Text

/-- There is no line break in a text. -/
def Unbroken (s : String) : Prop := '\n' ∉ s.toList

instance (s : String) : Decidable (Unbroken s) := inferInstanceAs (Decidable (¬ _))

@[simp] theorem unbroken_append {s t : String} : Unbroken (s ++ t) ↔ Unbroken s ∧ Unbroken t := by
  rw [Unbroken, String.toList_append, List.mem_append, not_or]
  rfl

/-- Joined texts are made of what the texts and the separator are made of. -/
theorem all_intercalate {p : Char → Bool} {sep : String} (hsep : sep.toList.all p) :
    ∀ {parts : List String}, (∀ s ∈ parts, s.toList.all p) → (sep.intercalate parts).toList.all p
  | [], _ => by simp
  | [s], hparts => by
    rw [String.intercalate_singleton]
    exact hparts s List.mem_cons_self
  | s :: t :: parts, hparts => by
    obtain ⟨hs, hrest⟩ := List.forall_mem_cons.mp hparts
    have hjoined := all_intercalate hsep hrest
    rw [String.intercalate_cons_cons, String.toList_append, String.toList_append, List.all_append,
      List.all_append, hs, hsep, hjoined]
    rfl

end Text

open Text (Unbroken)

@[simp] theorem Hex.unbroken_text (c : Case) (k v : Nat) : Unbroken (Hex.text c k v) := by
  rw [Unbroken, toList_text]
  exact Command.not_mem_digits rfl c k v

namespace Instruction

/-! ### Mnemonics -/

/-- What mnemonics are made of. -/
def isMnemonicChar (c : Char) : Bool := c.isUpper || c == '.'

theorem all_mnemonic (i : Instruction) : i.mnemonic.toList.all isMnemonicChar := by
  cases i with
  | arith x y op => cases op <;> simp only [mnemonic, Arith.mnemonic] <;> decide
  | _ =>
    simp only [mnemonic]
    decide

/-- Mnemonics hold no blanks, no small letters and no digits. -/
theorem not_mem_mnemonic {c : Char} (h : isMnemonicChar c = false) (i : Instruction) :
    c ∉ i.mnemonic.toList := by
  intro hc
  have hchar := List.all_eq_true.mp i.all_mnemonic c hc
  rw [h] at hchar
  exact nomatch hchar

/-! ### Whole texts -/

/-- What the text of an instruction is made of. -/
def isTextChar (c : Char) : Bool :=
  isMnemonicChar c || c.isDigit || [' ', ',', '$', '#', '(', ')', '-'].contains c

theorem all_digits (k v : Nat) : (Hex.digits .upper k v).all isTextChar := by
  have hall : Hex.upperDigits.all isTextChar := by decide
  refine List.all_eq_true.mpr ?_
  intro c hc
  obtain ⟨d, rfl⟩ := Hex.mem_digits hc
  exact List.all_eq_true.mp hall _ (Hex.digit_mem_upperDigits d)

theorem all_operand (o : Operand) : o.text.toList.all isTextChar := by
  cases o <;>
    simp only [Operand.text, String.toList_append, Hex.toList_text, List.all_append, all_digits,
      Bool.and_true] <;>
    decide

theorem all_operandText (i : Instruction) : i.operandText.toList.all isTextChar := by
  refine Text.all_intercalate (by decide) ?_
  intro s hs
  obtain ⟨o, -, rfl⟩ := List.mem_map.mp hs
  exact all_operand o

theorem all_mnemonicColumn (i : Instruction) : i.mnemonicColumn.toList.all isTextChar := by
  have hmnemonic : i.mnemonic.toList.all isTextChar := by
    refine List.all_eq_true.mpr ?_
    intro c hc
    rw [isTextChar, List.all_eq_true.mp i.all_mnemonic c hc]
    rfl
  have hblank : isTextChar ' ' := by decide
  simp [mnemonicColumn, hmnemonic, hblank]

theorem all_text (i : Instruction) : i.text.toList.all isTextChar := by
  rw [text]
  split
  · exact i.all_mnemonicColumn
  · have hblank : " ".toList.all isTextChar := by decide
    rw [String.toList_append, String.toList_append, List.all_append, List.all_append,
      i.all_mnemonicColumn, hblank, i.all_operandText]
    rfl

/-- The text of an instruction holds no line breaks and no small letters. -/
theorem not_mem_text {c : Char} (h : isTextChar c = false) (i : Instruction) :
    c ∉ i.text.toList := by
  intro hc
  have hchar := List.all_eq_true.mp i.all_text c hc
  rw [h] at hchar
  exact nomatch hchar

/-- **An instruction is written on one line.** -/
theorem unbroken_text (i : Instruction) : Unbroken i.text :=
  i.not_mem_text (by decide)

end Instruction

end Chip8
