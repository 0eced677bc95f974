import Chip8.Proofs.Instruction.Pictures
import Chip8.Proofs.Listing.Sizes

/-!
# The layout of a listing

A line break closes every line of a listing and stands nowhere else, so taking the text apart at its
line breaks gives the lines back. In a line that is an instruction, eleven characters of address and
bytes come first, then the mnemonic in a column of ten, and then, if there are operands, one blank
and the operands up to the end. Since every part has its place, a reader can cut the text by
counting characters.

What the operands look like does not depend on a listing, and is said of all instructions: each of
them fits its picture.

## Main definitions

* `Listing.IsLaidOut` — what is promised of the text of some lines

## Main results

* `Listing.Line.drop_text_of_body` — behind its columns a line is the text of its instruction
* `Listing.disassemble_isLaidOut` — the headline: the promise is kept for every accepted image, and
  every operand column fits its picture
-/

namespace Chip8.Listing

namespace Line

variable {l : Line} {i : Instruction}

theorem drop_text_of_body (h : l.body = some i) : l.text.toList.drop 11 = i.text.toList := by
  rw [text_of_body h, String.toList_append]
  exact List.drop_left' l.length_columns

theorem mnemonic_of_body (h : l.body = some i) :
    (l.text.toList.drop 11).take 10 =
      i.mnemonic.toList ++ List.replicate (10 - i.mnemonic.length) ' ' := by
  rw [drop_text_of_body h]
  exact i.take_text.trans i.toList_mnemonicColumn

theorem operands_of_body (h : l.body = some i) :
    l.text.toList.drop 21 = if i.operandText = "" then [] else ' ' :: i.operandText.toList := by
  rw [← i.drop_text, ← drop_text_of_body h, List.drop_drop]
  rfl

theorem mnemonicOf_of_body (h : l.body = some i) :
    Instruction.mnemonicOf (l.text.toList.drop 11) = i.mnemonic := by
  rw [drop_text_of_body h, i.mnemonicOf_text]

theorem operandTextOf_of_body (h : l.body = some i) :
    Instruction.operandTextOf (l.text.toList.drop 11) = i.operandText := by
  rw [drop_text_of_body h, i.operandTextOf_text]

end Line

/-- What is promised of the text of some lines. -/
structure IsLaidOut (text : String) (ls : List Line) : Prop where
  /-- Each line is one piece of the text, and nothing stands behind the last line break. -/
  pieces : Text.pieces '\n' text = ls.map Line.text ++ [""]
  /-- The mnemonic fills columns 11 to 20. -/
  mnemonic {l : Line} {i : Instruction} : l ∈ ls → l.body = some i →
    (l.text.toList.drop 11).take 10 =
      i.mnemonic.toList ++ List.replicate (10 - i.mnemonic.length) ' '
  /-- Behind it stands nothing, or a blank and the operands. -/
  operands {l : Line} {i : Instruction} : l ∈ ls → l.body = some i →
    l.text.toList.drop 21 = if i.operandText = "" then [] else ' ' :: i.operandText.toList
  /-- So both are read back by column: the mnemonic up to the first blank in its column, the
  operands from column 22 on. -/
  recovered {l : Line} {i : Instruction} : l ∈ ls → l.body = some i →
    String.ofList (((l.text.toList.drop 11).take 10).takeWhile (· ≠ ' ')) = i.mnemonic ∧
      String.ofList (l.text.toList.drop 22) = i.operandText

theorem textOf_isLaidOut (ls : List Line) : IsLaidOut (textOf ls) ls where
  pieces := pieces_textOf ls
  mnemonic _ h := Line.mnemonic_of_body h
  operands _ h := Line.operands_of_body h
  recovered := by
    intro l i _ h
    refine ⟨Line.mnemonicOf_of_body h, ?_⟩
    rw [← Line.operandTextOf_of_body h, Instruction.operandTextOf, List.drop_drop]
    rfl

/-- **Everything in a listing has its place.** The text of an accepted image is laid out in lines
and columns. Only two instructions end behind their mnemonic, the operands of every instruction fit
their picture, and instructions that differ in their fields alone have texts of one length. -/
theorem disassemble_isLaidOut :
    (∀ {o : Options} {image : Image} {ls : List Line}, (lines o image).value = .ok ls →
      ∃ text, (disassemble o image).value = .ok text ∧ IsLaidOut text ls) ∧
    (∀ i : Instruction, i.operandText = "" ↔ i = .clearScreen ∨ i = .ret) ∧
    (∀ i : Instruction, Text.Fits i.picture i.operandText) ∧
    ∀ i j : Instruction, i.form = j.form → i.text.length = j.text.length := by
  refine ⟨?_, ?_, Instruction.fits_operandText, fun i j => Instruction.length_text_of_form_eq⟩
  · intro o image ls hls
    exact ⟨_, value_disassemble hls, textOf_isLaidOut ls⟩
  · intro i
    rw [i.operandText_eq_empty_iff, i.operands_eq_nil_iff]

/-- A sprite between a bare marker and an odd byte. -/
theorem disassemble_isLaidOut_sprite :
    (lines { unknownStyle := .bare } [0xF0, 0x00, 0xD2, 0x29, 0x77]).value =
        .ok (linesFrom .bare programStart [0xF0, 0x00, 0xD2, 0x29, 0x77]) ∧
      (∃ text, (disassemble { unknownStyle := .bare } [0xF0, 0x00, 0xD2, 0x29, 0x77]).value =
          .ok text ∧
        Text.pieces '\n' text = ["unknown opcode", "0202 d2 29 SPRITE.    V2,V2,#$9", ""]) ∧
      ∃ l ∈ linesFrom .bare programStart [0xF0, 0x00, 0xD2, 0x29, 0x77],
        String.ofList (((l.text.toList.drop 11).take 10).takeWhile (· ≠ ' ')) = "SPRITE." ∧
          String.ofList (l.text.toList.drop 22) = "V2,V2,#$9" := by
  have hls : (lines { unknownStyle := .bare } [0xF0, 0x00, 0xD2, 0x29, 0x77]).value =
      .ok (linesFrom .bare programStart [0xF0, 0x00, 0xD2, 0x29, 0x77]) := rfl
  obtain ⟨text, htext, hlaid⟩ := disassemble_isLaidOut.1 hls
  have hsprite : Line.ofBytes .bare 0x202 0xD2 0x29 ∈
      linesFrom .bare programStart [0xF0, 0x00, 0xD2, 0x29, 0x77] := by decide
  refine ⟨hls, ⟨text, htext, hlaid.pieces.trans (by decide)⟩, _, hsprite, ?_⟩
  exact hlaid.recovered hsprite (i := .draw 2 2 9) rfl

end Chip8.Listing
