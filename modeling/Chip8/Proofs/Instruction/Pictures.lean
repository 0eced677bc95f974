import Chip8.Proofs.Instruction.Columns
import Mathlib.Data.List.Forall2

/-!
# Pictures of operands

Each kind of operand has a picture: its text with the digits left open. A field is as wide as its
type, so the picture is known without the value of the field, and every place that is left open is
filled by exactly one digit. The operand column of an instruction has a picture too, which follows
from what kind of instruction it is.

## Main definitions

* `Text.Fits` — a text fits a picture
* `Operand.picture`, `Instruction.picture` — the pictures
* `Instruction.form` — an instruction with all its fields cleared

## Main results

* `Instruction.fits_operandText` — the operand column fits its picture
* `Instruction.length_text_of_form_eq` — so instructions of one form have texts of one length
-/

namespace Chip8

/-! ### Texts and pictures -/

namespace Text

/-- Whether a character can stand at a place of a picture. A place that is left open takes a digit,
and any other one its own character. -/
def Fills (place c : Char) : Prop := if place = '_' then c ∈ Hex.upperDigits else c = place

/-- The characters of a text fill the places of a picture, one by one. -/
def Fits (picture text : String) : Prop := List.Forall₂ Fills picture.toList text.toList

theorem Fits.length_eq {picture text : String} (h : Fits picture text) :
    picture.length = text.length := by
  rw [← String.length_toList, ← String.length_toList]
  exact List.Forall₂.length_eq h

theorem Fits.append {picture picture' text text' : String} (h : Fits picture text)
    (h' : Fits picture' text') : Fits (picture ++ picture') (text ++ text') := by
  rw [Fits, String.toList_append, String.toList_append]
  exact List.rel_append h h'

/-- Texts that are joined fit the pictures that are joined. -/
theorem fits_intercalate {α : Type} {sep : String} (hsep : Fits sep sep)
    (picture text : α → String) :
    ∀ {xs : List α}, (∀ x ∈ xs, Fits (picture x) (text x)) →
      Fits (sep.intercalate (xs.map picture)) (sep.intercalate (xs.map text))
  | [], _ => .nil
  | [x], h => by
    rw [List.map_singleton, List.map_singleton, String.intercalate_singleton,
      String.intercalate_singleton]
    exact h x List.mem_cons_self
  | x :: y :: xs, h => by
    obtain ⟨hx, hrest⟩ := List.forall_mem_cons.mp h
    have hjoin : ∀ f : α → String, sep.intercalate ((x :: y :: xs).map f) =
        f x ++ sep ++ sep.intercalate ((y :: xs).map f) :=
      fun f => String.intercalate_cons_cons
    rw [hjoin, hjoin]
    exact (hx.append hsep).append (fits_intercalate hsep picture text hrest)

end Text

/-! ### Operands -/

namespace Operand

/-- The text of an operand, with its digits left open. -/
def picture : Operand → String
  | register _ => "V_"
  | registersTo _ => "V0-V_"
  | index => "I"
  | memory => "(I)"
  | delay => "DELAY"
  | sound => "SOUND"
  | target _ => "$___"
  | targetOffset _ => "$___(V0)"
  | targetConstant _ => "#$___"
  | byteConstant _ => "#$__"
  | nibbleConstant _ => "#$_"

/-- **Every field is filled exactly.** -/
theorem fits_text (o : Operand) : Text.Fits o.picture o.text := by
  cases o <;> simp [Text.Fits, Text.Fills, picture, text, Hex.digits, Hex.digit_mem_upperDigits]

end Operand

/-! ### Instructions -/

namespace Instruction

/-- An instruction with all its fields cleared. An operation between registers is no field. -/
def form : Instruction → Instruction
  | clearScreen => clearScreen
  | ret => ret
  | jump _ => jump 0
  | jumpOffset _ => jumpOffset 0
  | call _ => call 0
  | skipIfByte _ _ => skipIfByte 0 0
  | skipUnlessByte _ _ => skipUnlessByte 0 0
  | skipIfEqual _ _ _ => skipIfEqual 0 0 0
  | skipUnlessEqual _ _ _ => skipUnlessEqual 0 0 0
  | setByte _ _ => setByte 0 0
  | addByte _ _ => addByte 0 0
  | setIndex _ => setIndex 0
  | addIndex _ => addIndex 0
  | arith _ _ op => arith 0 0 op
  | random _ _ => random 0 0
  | draw _ _ _ => draw 0 0 0
  | skipIfKey _ => skipIfKey 0
  | skipUnlessKey _ => skipUnlessKey 0
  | waitKey _ => waitKey 0
  | readDelay _ => readDelay 0
  | setDelay _ => setDelay 0
  | setSound _ => setSound 0
  | digitSprite _ => digitSprite 0
  | storeDecimal _ => storeDecimal 0
  | storeRegisters _ => storeRegisters 0
  | loadRegisters _ => loadRegisters 0

/-- The operand column, with all digits left open. -/
def picture (i : Instruction) : String := ",".intercalate (i.operands.map Operand.picture)

/-- **The operand column fits its picture.** -/
theorem fits_operandText (i : Instruction) : Text.Fits i.picture i.operandText :=
  Text.fits_intercalate (by simp [Text.Fits, Text.Fills]) Operand.picture Operand.text
    fun o _ => o.fits_text

theorem map_picture_operands_form (i : Instruction) :
    i.form.operands.map Operand.picture = i.operands.map Operand.picture := by
  cases i with
  | arith x y op => cases op <;> rfl
  | _ => rfl

theorem length_text (i : Instruction) :
    i.text.length =
      mnemonicWidth + if i.operands = [] then 0 else i.picture.length + 1 := by
  rw [← String.length_toList, toList_text, List.length_append, length_mnemonicColumn,
    i.fits_operandText.length_eq]
  simp only [operandText_eq_empty_iff]
  split <;> simp [String.length_toList]

/-- **Instructions of one form have texts of one length.** -/
theorem length_text_of_form_eq {i j : Instruction} (h : i.form = j.form) :
    i.text.length = j.text.length := by
  have hpictures : i.operands.map Operand.picture = j.operands.map Operand.picture := by
    rw [← i.map_picture_operands_form, h, j.map_picture_operands_form]
  have hnil : i.operands = [] ↔ j.operands = [] := by
    rw [← List.map_eq_nil_iff (f := Operand.picture), hpictures, List.map_eq_nil_iff]
  have hpicture : i.picture = j.picture := congrArg ",".intercalate hpictures
  simp only [length_text, hnil, hpicture]

end Instruction

end Chip8
