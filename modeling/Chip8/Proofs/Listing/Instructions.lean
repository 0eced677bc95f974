import Chip8.Proofs.Instruction.Reading
import Chip8.Proofs.Listing.Columns

/-!
# What the instructions of a listing tell

The columns of a line give its word back, but a reader who looks only at what stands behind them
sees less. Two images can look the same there, line by line, and still be different. This file says
in which digits: those that `Word.shown` clears, at lines that are instructions, and any digits at
lines that are not.

Neither the addresses nor the style of a listing plays a part, so the two images may be listed in
different ways.

## Main results

* `Listing.map_text_linesFrom_eq_iff` — when two images have the same texts behind their columns
* `Listing.texts_determine_shown` — the headline: what the text of an instruction tells, and what
  the texts of all instructions of an image tell
-/

namespace Chip8.Listing

theorem map_text_linesFrom_eq_iff {style style' : UnknownStyle} {a a' : Address}
    {image image' : Image} (hlength : image.length = image'.length) :
    (linesFrom style a image).map (fun l => l.operation.text) =
        (linesFrom style' a' image').map (fun l => l.operation.text) ↔
      ∀ (k : Nat) (w w' : Word), (words image)[k]? = some w → (words image')[k]? = some w' →
        w.IsShownAs w' := by
  have htext : ∀ style a w, (Line.ofWord style a w).operation.text = (Operation.ofWord w).text := by
    intro style a w
    rw [Line.operation_ofWord]
  rw [map_linesFrom (htext style), map_linesFrom (htext style'), map_eq_map_iff_getElem?,
    length_words, length_words, hlength]
  simp only [Word.operation_text_eq_iff, true_and]

/-- **The text of an instruction tells all of it but the fields that it does not show.** Two
instructions have one text exactly if they are equal without these fields. Two accepted images of
one size have the same texts line by line exactly if at every place either both words are
instructions and equal without the digits that are not shown, or neither is an instruction. -/
theorem texts_determine_shown :
    (∀ i j : Instruction, i.text = j.text ↔ i.shown = j.shown) ∧
    ∀ {o o' : Options} {image image' : Image} {ls ls' : List Line},
      (lines o image).value = .ok ls → (lines o' image').value = .ok ls' →
      image.length = image'.length →
      (ls.map (fun l => l.operation.text) = ls'.map (fun l => l.operation.text) ↔
        ∀ (k : Nat) (w w' : Word), (words image)[k]? = some w → (words image')[k]? = some w' →
          w.IsShownAs w') := by
  refine ⟨Instruction.text_eq_iff, ?_⟩
  intro o o' image image' ls ls' hls hls' hlength
  obtain ⟨-, rfl⟩ := value_lines_eq_ok_iff.mp hls
  obtain ⟨-, rfl⟩ := value_lines_eq_ok_iff.mp hls'
  exact map_text_linesFrom_eq_iff hlength

/-- Two images that differ in every word and look the same behind the columns: a comparison, a
shift, an alias, and a word that is no instruction. -/
theorem texts_determine_shown_everywhere :
    (lines {} [0x5A, 0xB3, 0x83, 0xB6, 0x01, 0xE0, 0xF0, 0x00]).value =
        .ok (linesFrom .addressed programStart [0x5A, 0xB3, 0x83, 0xB6, 0x01, 0xE0, 0xF0, 0x00]) ∧
      (lines { loadAddress := 0x600, unknownStyle := .bare }
          [0x5A, 0xB7, 0x83, 0xC6, 0x00, 0xE0, 0x00, 0x01]).value =
        .ok (linesFrom .bare 0x600 [0x5A, 0xB7, 0x83, 0xC6, 0x00, 0xE0, 0x00, 0x01]) ∧
      Word.IsShownAs 0x5AB3 0x5AB7 ∧ Word.IsShownAs 0x83B6 0x83C6 ∧ Word.IsShownAs 0x01E0 0x00E0 ∧
      Word.IsShownAs 0xF000 0x0001 := by
  have hls : (lines {} [0x5A, 0xB3, 0x83, 0xB6, 0x01, 0xE0, 0xF0, 0x00]).value =
      .ok (linesFrom .addressed programStart [0x5A, 0xB3, 0x83, 0xB6, 0x01, 0xE0, 0xF0, 0x00]) :=
    rfl
  have hls' : (lines { loadAddress := 0x600, unknownStyle := .bare }
      [0x5A, 0xB7, 0x83, 0xC6, 0x00, 0xE0, 0x00, 0x01]).value =
      .ok (linesFrom .bare 0x600 [0x5A, 0xB7, 0x83, 0xC6, 0x00, 0xE0, 0x00, 0x01]) := rfl
  have hshown := (texts_determine_shown.2 hls hls' rfl).mp (by decide)
  exact ⟨hls, hls', hshown 0 _ _ rfl rfl, hshown 1 _ _ rfl rfl, hshown 2 _ _ rfl rfl,
    hshown 3 _ _ rfl rfl⟩

end Chip8.Listing
